import KrossbarBus.Lib.Endpoints
import KrossbarBus.Hub.NamePatterns
import KrossbarBus.Transition.Run
import KrossbarBus.Collections.Table

namespace KrossbarConnect

open KrossbarHub (splitOnChar)
open KrossbarLib (InspectData inspectMethod)

variable {Json : Type}

inductive Color
  | brightBlue
  | brightYellow
  | brightGreen
  deriving DecidableEq

/-- `Value::from_str` and the `Display` of a JSON value, whether a message can carry it (BSON has no integers from
    2^63 on), and the colouring of a text. -/
structure Environment (Json : Type) where
  from_str : String → Except String Json
  display : Json → String
  serializable : Json → Bool
  colored : Color → String → String

inductive Output
  | println (text : String)
  | eprintln (text : String)
  deriving DecidableEq

/-- What the tool asks the target service for. -/
inductive Request (Json : Type)
  | call (method_name : String) (params : Json)
  | subscribe (signal_name : String)
  | get (endpoint : String)
  deriving DecidableEq

def Request.serializable (env : Environment Json) : Request Json → Bool
  | .call _ params => env.serializable params
  | .subscribe _ => true
  | .get _ => true

/-- How `handle_input_line` treats a line: it prints and returns whether to exit, it awaits the client, or it
    panics at `words[0]`. -/
inductive LineOutcome (Json : Type)
  | returns (output : List Output) (exit : Bool)
  | awaits (request : Request Json)
  | panics
  deriving DecidableEq

def printHelp (env : Environment Json) : List Output :=
  [.println ("\t" ++ env.colored .brightBlue "inspect" ++ " Inspect registered methods, signals, and states"),
    .println ("\t" ++ env.colored .brightYellow "call" ++ " \x7bmethod_name\x7d \x7bargument\x7d Call method with " ++
      "the given argument. Argument should be a JSON,"),
    .println ("\t\twhich deserializes into the method argument type (use tracing logs and " ++
      "\x60krossbar-monitor\x60"),
    .println "\t\tto find how method parameters serialize)",
    .println ("\t" ++ env.colored .brightYellow "subscribe" ++ " \x7bsignal_name\x7d Subscribe on the signal"),
    .println ("\t" ++ env.colored .brightBlue "q" ++ " Quit")]

def formatResponse (env : Environment Json) (endpoint_type endpoint_name : String) (json : Json) : String :=
  env.colored .brightBlue ">" ++ " " ++ endpoint_type ++ " '" ++ endpoint_name ++ "' response: " ++ env.display json

/-- `handle_input_line` up to its await. -/
def handleInputLine (env : Environment Json) (line : String) : LineOutcome Json :=
  let words := splitOnChar line ' '
  if line = "help" then .returns (printHelp env) false
  else if line = "q" then .returns [] true
  else match words with
    | [] => .panics
    | word :: arguments =>
      if word = "call" then
        match arguments with
        | [method_name, argument] =>
          match env.from_str argument with
          | .ok json => .awaits (.call method_name json)
          | .error err => .returns [.eprintln ("Failed to parse 'call' argument: " ++ err ++
              ". Should be a valid JSON")] false
        | _ => .returns [.eprintln ("Ivalid number of 'call' arguments given. " ++
            "Use 'help' to see command syntax")] false
      else if word = "subscribe" then
        match arguments with
        | [signal_name] => .awaits (.subscribe signal_name)
        | _ => .returns [.eprintln ("Ivalid number of 'subscribe' arguments given: no signal name given. " ++
            "Use 'help' to see command syntax")] false
      else if word = "inspect" then .awaits (.get inspectMethod)
      else .returns [.eprintln ("Unknown command '" ++ word ++ "'. Type 'help' to get list of commands")] false

def displayInspectData (env : Environment Json) (data : InspectData) : String :=
  env.colored .brightBlue "methods" ++ ":\n" ++ String.join (data.methods.map fun method => "\t" ++ method ++ "\n") ++
  env.colored .brightYellow "signals" ++ ":\n" ++ String.join (data.signals.map fun signal => "\t" ++ signal ++ "\n") ++
  env.colored .brightGreen "states" ++ ":\n" ++ String.join (data.states.map fun state => "\t" ++ state ++ "\n")

/-- What comes of the request that `handle_input_line` awaits, with the text of its error. -/
inductive Reply (Json : Type)
  | value (result : Except String Json)
  | stream (result : Except String Unit)
  | inspected (result : Except String InspectData)

/-- `handle_input_line` from its await on. -/
def handleReply (env : Environment Json) (service_name : String) : Request Json → Reply Json → Option (List Output)
  | .call method_name _, .value (.ok response) => some [.println (formatResponse env "Method" method_name response)]
  | .call _ _, .value (.error err) => some [.eprintln ("Failed to make a call: " ++ err)]
  | .subscribe _, .stream (.ok _) => some []
  | .subscribe signal_name, .stream (.error err) =>
    some [.eprintln ("Failed to subscribe to the signal '" ++ signal_name ++ "': " ++ err)]
  | .get _, .inspected (.ok resp) => some [.println (displayInspectData env resp)]
  | .get _, .inspected (.error err) =>
    some [.eprintln ("Failed to inspect service '" ++ service_name ++ "': " ++ err)]
  | _, _ => none

/-- The task of `start_polling_subcription`: it waits for the stream or sleeps before it prints an item. -/
inductive PollingPhase (Json : Type)
  | next
  | sleeping (value_result : Except String Json)
  | finished

structure Polling (Json : Type) where
  signal_name : String
  phase : PollingPhase Json

inductive Prompt (Json : Type)
  | reading
  | awaiting (line : String) (request : Request Json)
  /-- `Client::call` takes a request that it cannot send for a lost connection, and waits for its reconnect event. -/
  | unsent (line : String) (request : Request Json)
  | exited

/-- The tool in its loop. `history_entries` are the lines that `add_history_entry` was called with, whatever the
    editor keeps of them, `current_input` is what the helper has seen of the line that is being typed. -/
structure Session (Json : Type) where
  prompt : Prompt Json
  history_entries : List String
  tasks : Table Nat (Polling Json)
  clock : Nat
  current_input : String

def Session.new : Session Json where
  prompt := .reading
  history_entries := []
  tasks := .empty
  clock := 0
  current_input := ""

inductive ReadlineError
  | interrupted
  | eof
  | other (debug : String)

inductive Action (Json : Type)
  | readline (line : String)
  | readlineFails (err : ReadlineError)
  | reply (reply : Reply Json)
  /-- `subscription.next()` yields an item, or the end of the stream. -/
  | item (number : Nat) (value_result : Option (Except String Json))
  | elapsed (number : Nat)
  | hint (line : String)

inductive Event (Json : Type)
  | entered (line : String)
  | requested (request : Request Json)
  | printed (output : Output)
  | received (number : Nat) (value_result : Except String Json)
  | inserted (number : Nat) (string current_input : String)

def ReadlineError.output : ReadlineError → Output
  | .interrupted => .println "CTRL-C"
  | .eof => .println "CTRL-D"
  | .other debug => .println ("Error: " ++ debug)

def subscriptionText (env : Environment Json) (signal_name : String) : Except String Json → String
  | .ok json => formatResponse env "Signal" signal_name json
  | .error err => "Error subscribing to a signal '" ++ signal_name ++ "': " ++ err

/-- The loop of `main` and the tasks that it has spawned, which end with it. -/
def Session.step (env : Environment Json) (target_service : String) :
    Transition.Step (Session Json) (Action Json) (Event Json)
  | session, .readline line =>
    match session.prompt with
    | .reading =>
      match handleInputLine env line with
      | .returns output false =>
        some ({ session with history_entries := session.history_entries ++ [line] },
          .entered line :: output.map .printed)
      | .returns output true => some ({ session with prompt := .exited }, .entered line :: output.map .printed)
      | .awaits request =>
        if request.serializable env then
          some ({ session with prompt := .awaiting line request }, [.entered line, .requested request])
        else some ({ session with prompt := .unsent line request }, [.entered line])
      | .panics => some ({ session with prompt := .exited }, [.entered line])
    | _ => none
  | session, .readlineFails err =>
    match session.prompt with
    | .reading => some ({ session with prompt := .exited }, [.printed err.output])
    | _ => none
  | session, .reply reply =>
    match session.prompt with
    | .awaiting line request =>
      match handleReply env target_service request reply with
      | none => none
      | some output =>
        let read := { session with
          prompt := .reading
          history_entries := session.history_entries ++ [line] }
        match request, reply with
        | .subscribe signal_name, .stream (.ok _) => some ({ read with
            tasks := session.tasks.insert session.clock ⟨signal_name, .next⟩
            clock := session.clock + 1 }, [])
        | _, _ => some (read, output.map .printed)
    | .unsent line request =>
      match reply with
      | .value (.error err) =>
        match handleReply env target_service request (.value (.error err)) with
        | none => none
        | some output => some ({ session with
            prompt := .reading
            history_entries := session.history_entries ++ [line] }, output.map .printed)
      | _ => none
    | _ => none
  | session, .item number value_result =>
    match session.prompt, session.tasks.get number with
    | .exited, _ => none
    | _, some ⟨signal_name, .next⟩ =>
      match value_result with
      | some value_result => some ({ session with
          tasks := session.tasks.insert number ⟨signal_name, .sleeping value_result⟩ }, [.received number value_result])
      | none => some ({ session with tasks := session.tasks.insert number ⟨signal_name, .finished⟩ }, [])
    | _, _ => none
  | session, .elapsed number =>
    match session.prompt, session.tasks.get number with
    | .exited, _ => none
    | _, some ⟨signal_name, .sleeping value_result⟩ => some ({ session with
        tasks := session.tasks.insert number ⟨signal_name, if value_result.isOk then .next else .finished⟩ },
        [.inserted number (subscriptionText env signal_name value_result) session.current_input])
    | _, _ => none
  | session, .hint line =>
    match session.prompt with
    | .reading => some ({ session with current_input := line }, [])
    | _ => none

variable {env : Environment Json} {target_service : String} {session after : Session Json} {action : Action Json}
  {out : List (Event Json)}

/-- What a step can do. -/
inductive Session.Steps (env : Environment Json) (target_service : String) (session : Session Json) :
    Session Json → List (Event Json) → Prop
  | handled (line : String) (output : List Output) (reading : session.prompt = .reading)
      (returns : handleInputLine env line = .returns output false) :
      Session.Steps env target_service session { session with history_entries := session.history_entries ++ [line] }
        (.entered line :: output.map .printed)
  | quit (line : String) (output : List Output) (reading : session.prompt = .reading)
      (returns : handleInputLine env line = .returns output true) :
      Session.Steps env target_service session { session with prompt := .exited }
        (.entered line :: output.map .printed)
  | asked (line : String) (request : Request Json) (reading : session.prompt = .reading)
      (awaits : handleInputLine env line = .awaits request) (serializable : request.serializable env = true) :
      Session.Steps env target_service session { session with prompt := .awaiting line request }
        [.entered line, .requested request]
  | withheld (line : String) (request : Request Json) (reading : session.prompt = .reading)
      (awaits : handleInputLine env line = .awaits request) (unserializable : request.serializable env = false) :
      Session.Steps env target_service session { session with prompt := .unsent line request } [.entered line]
  | panicked (line : String) (reading : session.prompt = .reading) (panics : handleInputLine env line = .panics) :
      Session.Steps env target_service session { session with prompt := .exited } [.entered line]
  | failed (err : ReadlineError) (reading : session.prompt = .reading) :
      Session.Steps env target_service session { session with prompt := .exited } [.printed err.output]
  | subscribed (line signal_name : String) (awaiting : session.prompt = .awaiting line (.subscribe signal_name)) :
      Session.Steps env target_service session { session with
        prompt := .reading
        history_entries := session.history_entries ++ [line]
        tasks := session.tasks.insert session.clock ⟨signal_name, .next⟩
        clock := session.clock + 1 } []
  | answered (line : String) (request : Request Json) (reply : Reply Json) (output : List Output)
      (awaiting : session.prompt = .awaiting line request)
      (handled : handleReply env target_service request reply = some output) :
      Session.Steps env target_service session { session with
        prompt := .reading
        history_entries := session.history_entries ++ [line] } (output.map .printed)
  | refused (line : String) (request : Request Json) (err : String) (output : List Output)
      (unsent : session.prompt = .unsent line request)
      (handled : handleReply env target_service request (.value (.error err)) = some output) :
      Session.Steps env target_service session { session with
        prompt := .reading
        history_entries := session.history_entries ++ [line] } (output.map .printed)
  | received (number : Nat) (signal_name : String) (value_result : Except String Json)
      (waiting : session.tasks.get number = some ⟨signal_name, .next⟩) :
      Session.Steps env target_service session { session with
        tasks := session.tasks.insert number ⟨signal_name, .sleeping value_result⟩ } [.received number value_result]
  | ended (number : Nat) (signal_name : String) (waiting : session.tasks.get number = some ⟨signal_name, .next⟩) :
      Session.Steps env target_service session { session with
        tasks := session.tasks.insert number ⟨signal_name, .finished⟩ } []
  | elapsed (number : Nat) (signal_name : String) (value_result : Except String Json)
      (sleeping : session.tasks.get number = some ⟨signal_name, .sleeping value_result⟩) :
      Session.Steps env target_service session { session with
        tasks := session.tasks.insert number ⟨signal_name, if value_result.isOk then .next else .finished⟩ }
        [.inserted number (subscriptionText env signal_name value_result) session.current_input]
  | hint (line : String) : Session.Steps env target_service session { session with current_input := line } []

theorem Session.step_cases (taken : Session.step env target_service session action = some (after, out)) :
    session.Steps env target_service after out := by
  cases action with
  | readline line =>
    simp only [Session.step] at taken
    split at taken
    · rename_i reading
      split at taken
      · rename_i output returns
        cases taken
        exact .handled line output reading returns
      · rename_i output returns
        cases taken
        exact .quit line output reading returns
      · rename_i request awaits
        split at taken
        · rename_i serializable
          cases taken
          exact .asked line request reading awaits serializable
        · rename_i unserializable
          cases taken
          exact .withheld line request reading awaits ((Bool.not_eq_true _).mp unserializable)
      · rename_i panics
        cases taken
        exact .panicked line reading panics
    · cases taken
  | readlineFails err =>
    simp only [Session.step] at taken
    split at taken
    · rename_i reading
      cases taken
      exact .failed err reading
    · cases taken
  | reply reply =>
    simp only [Session.step] at taken
    split at taken
    · rename_i line request awaiting
      split at taken
      · cases taken
      · rename_i output handled
        split at taken
        · cases taken
          exact .subscribed line _ awaiting
        · cases taken
          exact .answered line request reply output awaiting handled
    · rename_i line request unsent
      split at taken
      · rename_i err
        split at taken
        · cases taken
        · rename_i output handled
          cases taken
          exact .refused line request err output unsent handled
      · cases taken
    · cases taken
  | item number value_result =>
    simp only [Session.step] at taken
    split at taken
    · cases taken
    · rename_i signal_name waiting _
      split at taken
      · rename_i value_result
        cases taken
        exact .received number signal_name value_result waiting
      · cases taken
        exact .ended number signal_name waiting
    · cases taken
  | elapsed number =>
    simp only [Session.step] at taken
    split at taken
    · cases taken
    · rename_i signal_name value_result sleeping _
      cases taken
      exact .elapsed number signal_name value_result sleeping
    · cases taken
  | hint line =>
    simp only [Session.step] at taken
    split at taken
    · cases taken
      exact .hint line
    · cases taken

end KrossbarConnect
