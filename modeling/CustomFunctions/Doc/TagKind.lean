import CustomFunctions.Text.Casing

/-!
# Tags with a meaning

The tags that the generator acts on. A tag is recognised in any letter case; other tags are kept but
mean nothing.
-/

namespace CustomFunctions

/-- A tag that has a meaning. -/
inductive TagKind where
  | customFunction
  | param
  | returns
  | helpUrl
  | volatile
  | streaming
  | cancelable
  | requiresAddress
  | requiresParameterAddresses
  | requiresStreamAddress
  | requiresStreamParameterAddresses
  | supportSync
  | customEnum
  | linkedEntityDataProvider
  | linkedEntityLoadService
  | capturesCallingObject
  | excludeFromAutoComplete
  | action
deriving DecidableEq, Inhabited

namespace TagKind

/-- The tag name as authors write it. -/
def spelling : TagKind → String
  | customFunction => "customfunction"
  | param => "param"
  | returns => "returns"
  | helpUrl => "helpurl"
  | volatile => "volatile"
  | streaming => "streaming"
  | cancelable => "cancelable"
  | requiresAddress => "requiresAddress"
  | requiresParameterAddresses => "requiresParameterAddresses"
  | requiresStreamAddress => "requiresStreamAddress"
  | requiresStreamParameterAddresses => "requiresStreamParameterAddresses"
  | supportSync => "supportSync"
  | customEnum => "customenum"
  | linkedEntityDataProvider => "linkedEntityDataProvider"
  | linkedEntityLoadService => "linkedEntityLoadService"
  | capturesCallingObject => "capturesCallingObject"
  | excludeFromAutoComplete => "excludeFromAutoComplete"
  | action => "action"

/-- The tag name in lower case. -/
def canonical : TagKind → String
  | customFunction => "customfunction"
  | param => "param"
  | returns => "returns"
  | helpUrl => "helpurl"
  | volatile => "volatile"
  | streaming => "streaming"
  | cancelable => "cancelable"
  | requiresAddress => "requiresaddress"
  | requiresParameterAddresses => "requiresparameteraddresses"
  | requiresStreamAddress => "requiresstreamaddress"
  | requiresStreamParameterAddresses => "requiresstreamparameteraddresses"
  | supportSync => "supportsync"
  | customEnum => "customenum"
  | linkedEntityDataProvider => "linkedentitydataprovider"
  | linkedEntityLoadService => "linkedentityloadservice"
  | capturesCallingObject => "capturescallingobject"
  | excludeFromAutoComplete => "excludefromautocomplete"
  | action => "action"

/-- The tag as diagnostics show it. -/
def display (kind : TagKind) : String :=
  "@" ++ kind.spelling

/-- Every kind of tag. -/
def all : List TagKind :=
  [customFunction, param, returns, helpUrl, volatile, streaming, cancelable, requiresAddress,
    requiresParameterAddresses, requiresStreamAddress, requiresStreamParameterAddresses,
    supportSync, customEnum, linkedEntityDataProvider, linkedEntityLoadService,
    capturesCallingObject, excludeFromAutoComplete, action]

theorem mem_all (kind : TagKind) : kind ∈ all := by
  cases kind <;> decide

/-- The tag that a name stands for, in any letter case; `return` is another spelling of
`returns`. -/
def ofName? (name : String) : Option TagKind :=
  let lowered := Text.lowerCase name
  if lowered = "return" then some returns else all.find? (·.canonical = lowered)

end TagKind

end CustomFunctions
