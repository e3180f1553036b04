import BlobStore.FrontendService
import BlobStore.Library.IntegerText

set_option autoImplicit false

namespace BlobStore

inductive ConfigError where
  | runtimeError (what : String)
  | invalidArgument (what : String)
  | outOfRange (what : String)
  | undefinedBehaviour
deriving DecidableEq

abbrev ConfigM (α : Type) := Except ConfigError α

-- What std::getenv finds.
abbrev Environment := String → Option String

def InInt (value : Int) : Prop := -2147483648 ≤ value ∧ value ≤ 2147483647

instance (value : Int) : Decidable (InInt value) := inferInstanceAs (Decidable (_ ∧ _))

def stoi (text : String) : ConfigM Int :=
  match IntegerText.readInteger text.toList with
  | none => throw (.invalidArgument "stoi")
  | some value => if InInt value then pure value else throw (.outOfRange "stoi")

-- The operator % of two ints.
def modInt (dividend divisor : Int) : ConfigM Int :=
  if divisor = 0 ∨ dividend = -2147483648 ∧ divisor = -1 then throw .undefinedBehaviour
    else pure (dividend.tmod divisor)

def getEnvVarOpt (env : Environment) (varName : String) : Option String := env varName

def getEnvVarExn (env : Environment) (key : String) : ConfigM String :=
  match getEnvVarOpt env key with
  | none => throw (.runtimeError ("Missing environment variable: " ++ key))
  | some value => pure value

def ENV_CONTAINER_PORT : String := "CONTAINER_PORT"
def ENV_HOSTNAME_SELF : String := "HOSTNAME"
def ENV_MASTERS_COUNT : String := "MASTERS_COUNT"
def ENV_PROJECT_ID : String := "PROJECT_ID"
def ENV_SPANNER_INSTANCE_ID : String := "SPANNER_INSTANCE_ID"
def ENV_DB_NAME : String := "DB_NAME"

-- What follows the first '-'.
def getOrdinalFromHostname (hostname : String) : ConfigM Int :=
  match hostname.toList.dropWhile (fun letter => letter != '-') with
  | [] => throw (.runtimeError ("Invalid hostname: " ++ hostname))
  | _ :: rest => stoi (String.ofList rest)

structure MasterConfig where
  containerPort : UInt16
  ordinal : Int
  projectId : String
  spannerInstanceId : String
  dbName : String
deriving DecidableEq

structure FrontendConfig where
  mastersCount : Int
  containerPort : UInt16
deriving DecidableEq

structure WorkerConfig where
  containerPort : UInt16
  mastersCount : Int
  myServiceAddress : String
  masterService : String
deriving DecidableEq

-- An int that is stored in a uint16_t loses its upper half without a word.
def MasterConfig.loadFromEnv (env : Environment) : ConfigM MasterConfig := do
  let containerPort ← stoi (← getEnvVarExn env ENV_CONTAINER_PORT)
  let ordinal ← getOrdinalFromHostname (← getEnvVarExn env ENV_HOSTNAME_SELF)
  let projectId ← getEnvVarExn env ENV_PROJECT_ID
  let spannerInstanceId ← getEnvVarExn env ENV_SPANNER_INSTANCE_ID
  let dbName ← getEnvVarExn env ENV_DB_NAME
  pure ⟨UInt16.ofInt containerPort, ordinal, projectId, spannerInstanceId, dbName⟩

def FrontendConfig.loadFromEnv (env : Environment) : ConfigM FrontendConfig := do
  let mastersCount ← stoi (← getEnvVarExn env ENV_MASTERS_COUNT)
  let containerPort ← stoi (← getEnvVarExn env ENV_CONTAINER_PORT)
  pure ⟨mastersCount, UInt16.ofInt containerPort⟩

def WorkerConfig.loadFromEnv (env : Environment) : ConfigM WorkerConfig := do
  let containerPort ← stoi (← getEnvVarExn env ENV_CONTAINER_PORT)
  let mastersCount ← stoi (← getEnvVarExn env ENV_MASTERS_COUNT)
  let hostname ← getEnvVarExn env ENV_HOSTNAME_SELF
  let myServiceAddress := hostname ++ ".worker-service:" ++ toString (UInt16.ofInt containerPort).toNat
  let ordinal ← getOrdinalFromHostname hostname
  let masterIdx ← modInt ordinal mastersCount
  pure ⟨UInt16.ofInt containerPort, mastersCount, myServiceAddress,
    "master-" ++ toString masterIdx ++ ".master-service:50042"⟩

end BlobStore
