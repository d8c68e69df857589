import CustomFunctions.Command.Check
import CustomFunctions.Command.Request

/-!
# Running requests

A request is run with the configuration that it names. Without a configuration file the settings have
their defaults.
-/

namespace CustomFunctions

/-- The configuration at a path. -/
def Config.load (w : Workspace) (path : String) : Except Failure Config :=
  match w.entry path with
  | .error _ => .ok {}
  | .ok _ =>
    match w.text path with
    | .error fault => .error (.file fault)
    | .ok text =>
      match Config.read? text with
      | some config => .ok config
      | none => .error .json

/-- The outcome of a request. -/
def Request.run (w : Workspace) (request : Request) : Outcome :=
  let path := request.config.getD Config.fileName
  match Config.load w path with
  | .error e =>
    { workspace := w : Outcome }.refuse ("Failed to load " ++ path ++ ": " ++ e.message)
  | .ok config =>
    match request.work with
    | .generate inputs output code => Outcome.generate w config inputs output code
    | .check inputs against => Outcome.check w config inputs against
    | .validate file => Outcome.validate w file

end CustomFunctions
