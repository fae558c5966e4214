import KrossbarBus.Hub.Permissions
import Mathlib.Data.List.Infix

namespace KrossbarLib

open KrossbarHub (Error)

variable {ε ρ δ α : Type}

/-- How far a call on a client is. `responding` waits for the response to a request that was sent. -/
inductive Progress (α : Type)
  | sending
  | responding
  | waiting
  | returned (result : Except Error α)
  deriving DecidableEq

/-- An outcome that the call has seen, of the writer or of `hub_reconnect_event`. -/
inductive Attempt (ρ δ : Type)
  | sent (request : ρ) (data : δ)
  | unsent (request : ρ)
  | reconnected
  | refused (e : Error)

/-- The recursion that `call`, `message` and `subscribe` share, over the outcomes of their sends and of their
    waits. Where an outcome has not come yet it stops. -/
def retry (request : ρ) (respond : δ → Progress α) :
    List (Except ε δ) → List (Except Error Unit) → List (Attempt ρ δ) × Progress α
  | [], _ => ([], .sending)
  | .ok data :: _, _ => ([.sent request data], respond data)
  | .error _ :: _, [] => ([.unsent request], .waiting)
  | .error _ :: _, .error e :: _ => ([.unsent request, .refused e], .returned (.error e))
  | .error _ :: sends, .ok () :: reconnects =>
    let (attempts, progress) := retry request respond sends reconnects
    (.unsent request :: .reconnected :: attempts, progress)

/-- The response of a call, if it has arrived. -/
def awaitResponse : Option (Except Error α) → Progress α
  | some response => .returned response
  | none => .responding

def Client.call {P R : Type} (endpoint : String) (params : P) :
    List (Except ε (Option (Except Error R))) → List (Except Error Unit) →
      List (Attempt (String × P) (Option (Except Error R))) × Progress R :=
  retry (endpoint, params) awaitResponse

def Client.get {R : Type} (endpoint : String) :
    List (Except ε (Option (Except Error R))) → List (Except Error Unit) →
      List (Attempt (String × Unit) (Option (Except Error R))) × Progress R :=
  Client.call endpoint ()

def Client.message {P : Type} (endpoint : String) (body : P) :
    List (Except ε Unit) → List (Except Error Unit) → List (Attempt (String × P) Unit) × Progress Unit :=
  retry (endpoint, body) fun data => .returned (.ok data)

def Client.subscribe {S : Type} (endpoint : String) :
    List (Except ε S) → List (Except Error Unit) → List (Attempt String S) × Progress S :=
  retry endpoint fun stream => .returned (.ok stream)

def Attempt.isSent : Attempt ρ δ → Bool
  | .sent .. => true
  | _ => false

def Attempt.isSend : Attempt ρ δ → Bool
  | .sent .. | .unsent _ => true
  | _ => false

@[simp] theorem isSend_sent (request : ρ) (data : δ) : (Attempt.sent request data).isSend = true := rfl
@[simp] theorem isSend_unsent (request : ρ) : (Attempt.unsent request : Attempt ρ δ).isSend = true := rfl
@[simp] theorem isSend_reconnected : (Attempt.reconnected : Attempt ρ δ).isSend = false := rfl
@[simp] theorem isSend_refused (e : Error) : (Attempt.refused e : Attempt ρ δ).isSend = false := rfl
@[simp] theorem isSent_sent (request : ρ) (data : δ) : (Attempt.sent request data).isSent = true := rfl
@[simp] theorem isSent_unsent (request : ρ) : (Attempt.unsent request : Attempt ρ δ).isSent = false := rfl
@[simp] theorem isSent_reconnected : (Attempt.reconnected : Attempt ρ δ).isSent = false := rfl
@[simp] theorem isSent_refused (e : Error) : (Attempt.refused e : Attempt ρ δ).isSent = false := rfl

variable {request : ρ} {respond : δ → Progress α} {sends : List (Except ε δ)} {reconnects : List (Except Error Unit)}
  {attempts before after : List (Attempt ρ δ)} {attempt : Attempt ρ δ} {progress : Progress α}

end KrossbarLib
