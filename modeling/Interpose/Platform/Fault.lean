import Interpose.Code.Fault
import Interpose.Harvest.Property

/-!
# Faults of requests

What can go wrong with a request to a platform: the request itself, the generation of a subtype, the
construction of an object, or what ran while it was answered.
-/

namespace Interpose

/-- What is wrong with a request or with options. -/
inductive ConfigError where
  | missingDispatcher (typeName : String)
  | dispatcherAlreadySet (typeName : String)
  | argumentCountMismatch (types values : Nat)
  | notAnInterface (typeName : String)
  | noSuchConstructor (typeName : String) (params : List ValueType)
  | notGenerated (typeName : String)
  /-- Options that are no well-formed document of the right shape. -/
  | unreadableOptions
  | invalidOptions (reason : String)
deriving DecidableEq

/-- The wording of an error. -/
def ConfigError.message : ConfigError → String
  | missingDispatcher typeName => "No dispatcher set for extension of " ++ typeName
  | dispatcherAlreadySet typeName => "Dispatcher already installed on " ++ typeName
  | argumentCountMismatch types values =>
    "Got " ++ toString types ++ " constructor argument types but " ++ toString values ++ " values"
  | notAnInterface typeName => typeName ++ " is not an interface"
  | noSuchConstructor typeName params =>
    "No constructor of " ++ typeName ++ " takes (" ++
      ", ".intercalate (params.map (·.text)) ++ ")"
  | notGenerated typeName => typeName ++ " is not a generated type"
  | unreadableOptions => "Failed to parse options"
  | invalidOptions reason => "Invalid options: " ++ reason

/-- Why a subtype was not generated. -/
inductive GenerationCause where
  | emit (e : EmitError)
  | property (e : HarvestError)
deriving DecidableEq

/-- The wording of a cause. -/
def GenerationCause.message : GenerationCause → String
  | emit e => e.message
  | property e => e.message

/-- The causes for which a platform does not answer a request. -/
inductive PlatformError where
  | config (e : ConfigError)
  | generation (typeName : String) (cause : GenerationCause)
  /-- A constructor raised an exception that callers would have to declare. -/
  | construction (typeName : String) (cause : HostError)
  | host (e : HostError)
deriving DecidableEq

/-- The wording of an error. -/
def PlatformError.message : PlatformError → String
  | config e => e.message
  | generation typeName _ => "Could not generate extension for type " ++ typeName
  | construction typeName _ => "Construction of " ++ typeName ++ " failed"
  | host e => e.message

end Interpose
