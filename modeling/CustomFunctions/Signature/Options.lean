import CustomFunctions.Doc.TagSet
import CustomFunctions.Json.Basic

/-!
# Function options

The flags by which a custom function asks the host for a certain treatment. Most of them are set by a
tag of their own.
-/

namespace CustomFunctions

/-- The flags of a custom function. -/
structure FunctionOptions where
  volatile : Bool := false
  stream : Bool := false
  cancelable : Bool := false
  requiresAddress : Bool := false
  requiresParameterAddresses : Bool := false
  requiresStreamAddress : Bool := false
  requiresStreamParameterAddresses : Bool := false
  supportSync : Bool := false
  capturesCallingObject : Bool := false
  excludeFromAutoComplete : Bool := false
  linkedEntityLoadService : Bool := false
  linkedEntityDataProvider : Bool := false
  action : Bool := false
deriving DecidableEq, Inhabited

namespace FunctionOptions

/-- The flags whose tags are present. -/
def ofTags (tags : TagSet) : FunctionOptions where
  volatile := tags.has .volatile
  stream := tags.has .streaming
  cancelable := tags.has .cancelable
  requiresAddress := tags.has .requiresAddress
  requiresParameterAddresses := tags.has .requiresParameterAddresses
  requiresStreamAddress := tags.has .requiresStreamAddress
  requiresStreamParameterAddresses := tags.has .requiresStreamParameterAddresses
  supportSync := tags.has .supportSync
  capturesCallingObject := tags.has .capturesCallingObject
  excludeFromAutoComplete := tags.has .excludeFromAutoComplete
  linkedEntityLoadService := tags.has .linkedEntityLoadService
  linkedEntityDataProvider := tags.has .linkedEntityDataProvider
  action := tags.has .action

/-- Is the flag that belongs to the tag set? Tags without a flag count as not set. -/
def isSet (options : FunctionOptions) : TagKind → Bool
  | .volatile => options.volatile
  | .streaming => options.stream
  | .cancelable => options.cancelable
  | .requiresAddress => options.requiresAddress
  | .requiresParameterAddresses => options.requiresParameterAddresses
  | .requiresStreamAddress => options.requiresStreamAddress
  | .requiresStreamParameterAddresses => options.requiresStreamParameterAddresses
  | .supportSync => options.supportSync
  | .capturesCallingObject => options.capturesCallingObject
  | .excludeFromAutoComplete => options.excludeFromAutoComplete
  | .linkedEntityLoadService => options.linkedEntityLoadService
  | .linkedEntityDataProvider => options.linkedEntityDataProvider
  | .action => options.action
  | _ => false

/-- The field of a flag that is written only when set. -/
def whenSet (key : String) (flag : Bool) : List (String × Json) :=
  if flag then [(key, .bool true)] else []

/-- The fields that the metadata show: the first three flags always, the others when set. -/
def fields (options : FunctionOptions) : List (String × Json) :=
  [("volatile", .bool options.volatile), ("stream", .bool options.stream),
    ("cancelable", .bool options.cancelable)]
  ++ whenSet "requiresAddress" options.requiresAddress
  ++ whenSet "requiresParameterAddresses" options.requiresParameterAddresses
  ++ whenSet "requiresStreamAddress" options.requiresStreamAddress
  ++ whenSet "requiresStreamParameterAddresses" options.requiresStreamParameterAddresses
  ++ whenSet "supportSync" options.supportSync
  ++ whenSet "capturesCallingObject" options.capturesCallingObject
  ++ whenSet "excludeFromAutoComplete" options.excludeFromAutoComplete
  ++ whenSet "linkedEntityLoadService" options.linkedEntityLoadService
  ++ whenSet "linkedEntityDataProvider" options.linkedEntityDataProvider
  ++ whenSet "action" options.action

/-- The flags as a JSON value. -/
def toJson (options : FunctionOptions) : Json :=
  .object options.fields

end FunctionOptions

end CustomFunctions
