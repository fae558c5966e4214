import KrossbarBus.Connect.Session
import KrossbarBus.Hub.Sections

namespace KrossbarConnect

open KrossbarHub
open KrossbarLib (inspectMethod)

variable {Json : Type} {env : Environment Json} {line method_name argument : String} {request : Request Json}
  {words : List String} {output : List Output}

/-- The lines that ask the target service for something. No word of them can hold a space, so that a JSON
    argument whose text has one cannot be passed. -/
inductive Asks (env : Environment Json) : String → Request Json → Prop
  | call (method_name argument : String) (json : Json) (name : ' ' ∉ method_name.toList)
      (word : ' ' ∉ argument.toList) (parsed : env.from_str argument = .ok json) :
      Asks env ("call " ++ method_name ++ " " ++ argument) (.call method_name json)
  | subscribe (signal_name : String) (word : ' ' ∉ signal_name.toList) :
      Asks env ("subscribe " ++ signal_name) (.subscribe signal_name)
  | inspect : Asks env "inspect" (.get inspectMethod)
  | inspectWith (rest : String) : Asks env ("inspect " ++ rest) (.get inspectMethod)

theorem splitOnChar_space {word : String} (plain : ' ' ∉ word.toList) (rest : String) :
    splitOnChar (word ++ " " ++ rest) ' ' = word :: splitOnChar rest ' ' :=
  splitOnChar_word plain rest

theorem awaits_asks (awaits : handleInputLine env line = .awaits request) : Asks env line request := by
  unfold handleInputLine at awaits
  dsimp only at awaits
  split at awaits
  · cases awaits
  · split at awaits
    · cases awaits
    · split at awaits
      · cases awaits
      · rename_i word arguments split
        obtain ⟨plain, front⟩ := splitOnChar_cons split
        split at awaits
        · rename_i same
          subst same
          split at awaits
          · rename_i method_name argument
            split at awaits
            · rename_i json parsed
              cases awaits
              rcases front with ⟨_, none⟩ | ⟨rest, rfl, behind⟩
              · cases none
              · obtain ⟨name, ⟨_, none⟩ | ⟨last, rfl, end_⟩⟩ := splitOnChar_cons behind
                · cases none
                · obtain rfl := splitOnChar_one end_
                  have word := (splitOnChar_cons end_).1
                  have asks := Asks.call method_name last json name word parsed
                  simpa [String.append_assoc] using asks
            · cases awaits
          · cases awaits
        · split at awaits
          · rename_i same
            subst same
            split at awaits
            · rename_i signal_name
              cases awaits
              rcases front with ⟨_, none⟩ | ⟨rest, rfl, behind⟩
              · cases none
              · obtain rfl := splitOnChar_one behind
                exact .subscribe rest (splitOnChar_cons behind).1
            · cases awaits
          · split at awaits
            · rename_i same
              subst same
              cases awaits
              rcases front with ⟨rfl, _⟩ | ⟨rest, rfl, _⟩
              · exact .inspect
              · exact .inspectWith rest
            · cases awaits

theorem command_line {word : String} (command : word ∈ ["call", "subscribe", "inspect"])
    (first : splitOnChar line ' ' = word :: words) : line ≠ "help" ∧ line ≠ "q" := by
  have help : splitOnChar "help" ' ' = ["help"] := splitOnChar_single (by decide)
  have quit : splitOnChar "q" ' ' = ["q"] := splitOnChar_single (by decide)
  constructor
  · intro same
    rw [same, help] at first
    obtain ⟨rfl, _⟩ := List.cons.inj first
    simp at command
  · intro same
    rw [same, quit] at first
    obtain ⟨rfl, _⟩ := List.cons.inj first
    simp at command

theorem asks_awaits (asks : Asks env line request) : handleInputLine env line = .awaits request := by
  cases asks with
  | call method_name argument json name word parsed =>
    have whole : "call" ++ " " ++ (method_name ++ " " ++ argument) = "call " ++ method_name ++ " " ++ argument := by
      apply String.toList_injective
      simp
    have words : splitOnChar ("call " ++ method_name ++ " " ++ argument) ' ' = ["call", method_name, argument] := by
      rw [← whole, splitOnChar_space (by decide), splitOnChar_space name, splitOnChar_single word]
    obtain ⟨help, quit⟩ := command_line (by simp) words
    simp [handleInputLine, words, help, quit, parsed]
  | subscribe signal_name word =>
    have words : splitOnChar ("subscribe" ++ " " ++ signal_name) ' ' = ["subscribe", signal_name] := by
      rw [splitOnChar_space (by decide), splitOnChar_single word]
    have whole : "subscribe" ++ " " ++ signal_name = "subscribe " ++ signal_name := by
      apply String.toList_injective
      simp
    rw [whole] at words
    obtain ⟨help, quit⟩ := command_line (by simp) words
    simp [handleInputLine, words, help, quit]
  | inspect =>
    have words : splitOnChar "inspect" ' ' = ["inspect"] := splitOnChar_single (by decide)
    simp [handleInputLine, words]
  | inspectWith rest =>
    have words : splitOnChar ("inspect" ++ " " ++ rest) ' ' = "inspect" :: splitOnChar rest ' ' :=
      splitOnChar_space (by decide) rest
    have whole : "inspect" ++ " " ++ rest = "inspect " ++ rest := by
      apply String.toList_injective
      simp
    rw [whole] at words
    obtain ⟨help, quit⟩ := command_line (by simp) words
    simp [handleInputLine, words, help, quit]

/-- `words[0]` is there for every line, the empty one included. -/
theorem line_never_panics (env : Environment Json) (line : String) : handleInputLine env line ≠ .panics := by
  intro panics
  unfold handleInputLine at panics
  dsimp only at panics
  split at panics
  · cases panics
  · split at panics
    · cases panics
    · split at panics
      · rename_i empty
        simp [splitOnChar, List.splitOn_ne_nil] at empty
      · split at panics
        · split at panics
          · split at panics <;> cases panics
          · cases panics
        · split at panics
          · split at panics <;> cases panics
          · split at panics <;> cases panics

theorem line_exits (exits : handleInputLine env line = .returns output true) : line = "q" ∧ output = [] := by
  unfold handleInputLine at exits
  dsimp only at exits
  split at exits
  · cases exits
  · split at exits
    · cases exits
      exact ⟨by assumption, rfl⟩
    · split at exits
      · cases exits
      · split at exits
        · split at exits
          · split at exits <;> cases exits
          · cases exits
        · split at exits
          · split at exits <;> cases exits
          · split at exits <;> cases exits

end KrossbarConnect
