import Mathlib.Data.List.Nodup

namespace Broadcast

variable {ι δ : Type*}

/-- Someone joins the members, or data is offered to the members of the moment, who accept it or leave. -/
inductive Op (ι δ : Type*)
  | join (member : ι)
  | cast (data : δ) (answers : List (ι × Bool))

def accepted (answers : List (ι × Bool)) : List ι := (answers.filter Prod.snd).map Prod.fst

def joined (history : List (Op ι δ)) : List ι :=
  history.filterMap fun
    | .join member => some member
    | .cast .. => none

def casts (history : List (Op ι δ)) : List δ :=
  history.filterMap fun
    | .join _ => none
    | .cast data _ => some data

def roster (members : List ι) : List (Op ι δ) → List ι
  | [] => members
  | .join member :: rest => roster (members ++ [member]) rest
  | .cast _ answers :: rest => roster (accepted answers) rest

/-- Every cast asks the members of its moment, in the order of the roster. -/
def Valid (members : List ι) : List (Op ι δ) → Prop
  | [] => True
  | .join member :: rest => Valid (members ++ [member]) rest
  | .cast _ answers :: rest => answers.map Prod.fst = members ∧ Valid (accepted answers) rest

variable [DecidableEq ι]

/-- What a member hears: every cast up to the first one that it does not accept. -/
def hears (member : ι) : List (Op ι δ) → List δ
  | [] => []
  | .join _ :: rest => hears member rest
  | .cast data answers :: rest => if (member, true) ∈ answers then data :: hears member rest else []

/-- What is heard by someone who joins in the course of the history. -/
def heard (member : ι) : List (Op ι δ) → List δ
  | [] => []
  | .join other :: rest => if other = member then hears member rest else heard member rest
  | .cast .. :: rest => heard member rest

/-- Every cast that someone has ever accepted. -/
def received (member : ι) (history : List (Op ι δ)) : List δ :=
  history.flatMap fun
    | .join _ => []
    | .cast data answers => if (member, true) ∈ answers then [data] else []

variable {members : List ι} {history rest : List (Op ι δ)} {member : ι} {answers : List (ι × Bool)}

omit [DecidableEq ι] in
@[simp] theorem joined_append : joined (history ++ rest) = joined history ++ joined rest := List.filterMap_append

omit [DecidableEq ι] in
@[simp] theorem casts_append : casts (history ++ rest) = casts history ++ casts rest := List.filterMap_append

omit [DecidableEq ι] in
theorem roster_append : roster members (history ++ rest) = roster (roster members history) rest := by
  induction history generalizing members with
  | nil => rfl
  | cons op history ih => cases op <;> exact ih

omit [DecidableEq ι] in
theorem valid_append : Valid members (history ++ rest) ↔
    Valid members history ∧ Valid (roster members history) rest := by
  induction history generalizing members with
  | nil => simp [Valid, roster]
  | cons op history ih =>
    cases op with
    | join member => exact ih
    | cast data answers => simp only [List.cons_append, Valid, roster, ih, and_assoc]

omit [DecidableEq ι] in
theorem mem_accepted : member ∈ accepted answers ↔ (member, true) ∈ answers := by
  simp [accepted]

omit [DecidableEq ι] in
theorem accepted_sublist (answers : List (ι × Bool)) : (accepted answers).Sublist (answers.map Prod.fst) :=
  List.filter_sublist.map Prod.fst

omit [DecidableEq ι] in
theorem unasked_refuses (asked : answers.map Prod.fst = members) (outside : member ∉ members) :
    (member, true) ∉ answers := by
  intro accepts
  rw [← asked] at outside
  exact outside (List.mem_map.mpr ⟨_, accepts, rfl⟩)

theorem received_absent (valid : Valid members history) (outside : member ∉ members)
    (never : member ∉ joined history) : received member history = [] := by
  induction history generalizing members with
  | nil => rfl
  | cons op history ih =>
    cases op with
    | join other =>
      have never : member ≠ other ∧ member ∉ joined history := by simpa [joined] using never
      have outside : member ∉ members ++ [other] := by simp [outside, never.1]
      exact ih valid outside never.2
    | cast data answers =>
      obtain ⟨asked, valid⟩ := valid
      have refuses := unasked_refuses asked outside
      have quiet := ih valid (by rwa [mem_accepted]) never
      simpa [received, refuses] using quiet

theorem received_hears (valid : Valid members history) (never : member ∉ joined history) :
    member ∈ members → received member history = hears member history := by
  induction history generalizing members with
  | nil => exact fun _ => rfl
  | cons op history ih =>
    intro inside
    cases op with
    | join other =>
      have never : member ≠ other ∧ member ∉ joined history := by simpa [joined] using never
      exact ih valid never.2 (List.mem_append_left _ inside)
    | cast data answers =>
      obtain ⟨asked, valid⟩ := valid
      by_cases accepts : (member, true) ∈ answers
      · have later := ih valid never (mem_accepted.mpr accepts)
        simpa [received, hears, accepts] using later
      · have quiet := received_absent valid (by rwa [mem_accepted]) never
        simpa [received, hears, accepts] using quiet

/-- In a valid history everyone gets the casts after the own join up to the first refusal, and no others. -/
theorem received_eq_heard (valid : Valid members history) (once : (joined history).Nodup)
    (outside : member ∉ members) : received member history = heard member history := by
  induction history generalizing members with
  | nil => rfl
  | cons op history ih =>
    cases op with
    | join other =>
      have once : other ∉ joined history ∧ (joined history).Nodup := by simpa [joined] using once
      by_cases same : other = member
      · subst same
        have valid : Valid (members ++ [other]) history := valid
        simpa [received, heard] using received_hears valid once.1 (by simp)
      · have outside : member ∉ members ++ [other] := by simp [outside, Ne.symm same]
        simpa [received, heard, same] using ih valid once.2 outside
    | cast data answers =>
      obtain ⟨asked, valid⟩ := valid
      have refuses := unasked_refuses asked outside
      simpa [received, heard, refuses] using ih valid once (by rwa [mem_accepted])

omit [DecidableEq ι] in
theorem roster_nodup (valid : Valid members history) (once : (members ++ joined history).Nodup) :
    (roster members history).Nodup := by
  induction history generalizing members with
  | nil => simpa [joined, roster] using once
  | cons op history ih =>
    cases op with
    | join other =>
      apply ih valid
      simpa [joined] using once
    | cast data answers =>
      obtain ⟨asked, valid⟩ := valid
      apply ih valid
      rw [← asked] at once
      exact ((accepted_sublist answers).append (List.Sublist.refl _)).nodup once

omit [DecidableEq ι] in
/-- No cast asks a member twice. -/
theorem answers_nodup (valid : Valid members history) (once : (members ++ joined history).Nodup) {data : δ}
    (cast : .cast data answers ∈ history) : (answers.map Prod.fst).Nodup := by
  obtain ⟨before, later, rfl⟩ := List.append_of_mem cast
  rw [joined_append, ← List.append_assoc] at once
  obtain ⟨valid, asked, _⟩ := valid_append.mp valid
  rw [asked]
  exact roster_nodup valid (List.Nodup.of_append_left once)

end Broadcast
