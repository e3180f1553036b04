import BlobStore.Environment

set_option autoImplicit false

namespace BlobStore

open IntegerText

theorem written_in_int (value : Int) (inside : InInt value) (rest : List Char)
    (stops : ∀ letter, rest.head? = some letter → letter.isDigit = false) (text : String)
    (written : text.toList = (toString value).toList ++ rest) : stoi text = .ok value := by
  rw [stoi, written, read_integer_written value rest stops]
  exact if_pos inside

theorem stoi_to_string (value : Int) (inside : InInt value) : stoi (toString value) = .ok value :=
  written_in_int value inside [] (fun _ first => by cases first) _ (List.append_nil _).symm

theorem ordinal_of_hostname (setName : String) (plain : '-' ∉ setName.toList)
    (ordinal : Int) (inside : InInt ordinal) :
    getOrdinalFromHostname (setName ++ "-" ++ toString ordinal) = .ok ordinal := by
  have split : (setName ++ "-" ++ toString ordinal).toList.dropWhile (fun letter => letter != '-') =
      '-' :: (toString ordinal).toList := by
    rw [String.toList_append, String.toList_append, List.append_assoc, List.dropWhile_append_of_pos]
    · rfl
    · intro letter member
      simp only [bne_iff_ne, ne_eq]
      exact fun same => plain (same ▸ member)
  rw [getOrdinalFromHostname, split]
  dsimp only
  rw [String.ofList_toList]
  exact stoi_to_string ordinal inside

-- The stateful sets of the masters and of the workers, and the frontends beside them. A
-- pod of a set is named after the set and its number, and it is found under its name in
-- the set's service.
structure Deployment where
  masters : Nat
  some : 0 < masters
  few : masters < 2 ^ 31
  masterPort : UInt16
  workerPort : UInt16
  frontendPort : UInt16
  projectId : String
  spannerInstanceId : String
  dbName : String

def podName (setName : String) (number : Nat) : String := setName ++ "-" ++ toString number

def podAddress (hostname service : String) (port : UInt16) : String :=
  hostname ++ "." ++ service ++ ":" ++ toString port.toNat

namespace Deployment

variable (deployment : Deployment)

def masterPod (number : Nat) : Environment := fun key => [(ENV_HOSTNAME_SELF, podName "master" number),
  (ENV_CONTAINER_PORT, toString deployment.masterPort.toNat), (ENV_PROJECT_ID, deployment.projectId),
  (ENV_SPANNER_INSTANCE_ID, deployment.spannerInstanceId), (ENV_DB_NAME, deployment.dbName)].lookup key

def workerPod (number : Nat) : Environment := fun key => [(ENV_HOSTNAME_SELF, podName "worker" number),
  (ENV_MASTERS_COUNT, toString deployment.masters),
    (ENV_CONTAINER_PORT, toString deployment.workerPort.toNat)].lookup key

def frontendPod : Environment := fun key => [(ENV_MASTERS_COUNT, toString deployment.masters),
  (ENV_CONTAINER_PORT, toString deployment.frontendPort.toNat)].lookup key

def MasterAt (address : String) (number : Nat) : Prop := number < deployment.masters ∧
  ∃ config, MasterConfig.loadFromEnv (deployment.masterPod number) = .ok config ∧ config.ordinal = number ∧
    address = podAddress (podName "master" number) "master-service" config.containerPort

end Deployment

variable (deployment : Deployment)

theorem port_in_int (port : UInt16) : InInt port.toNat := by
  have bound := port.toNat_lt
  constructor <;> omega

theorem stored_port (port : UInt16) : UInt16.ofInt (port.toNat : Int) = port := by
  have bound := port.toNat_lt
  rw [UInt16.ofInt, Int.emod_eq_of_lt (by omega) (by omega), Int.toNat_natCast, UInt16.ofNat_toNat]

theorem env_var_found (env : Environment) (key value : String) (found : env key = some value) :
    getEnvVarExn env key = .ok value := by
  rw [getEnvVarExn, getEnvVarOpt, found]
  rfl

theorem master_pod_loads (number : Nat) (fits : number < 2 ^ 31) :
    MasterConfig.loadFromEnv (deployment.masterPod number) =
      .ok ⟨deployment.masterPort, number, deployment.projectId, deployment.spannerInstanceId,
        deployment.dbName⟩ := by
  have port : stoi (toString deployment.masterPort.toNat) = .ok (deployment.masterPort.toNat : Int) :=
    stoi_to_string (deployment.masterPort.toNat : Int) (port_in_int _)
  have ordinal : getOrdinalFromHostname (podName "master" number) = .ok (number : Int) :=
    ordinal_of_hostname "master" (by decide) (number : Int) ⟨by omega, by omega⟩
  rw [MasterConfig.loadFromEnv,
    env_var_found (deployment.masterPod number) ENV_CONTAINER_PORT _ rfl,
    env_var_found (deployment.masterPod number) ENV_HOSTNAME_SELF _ rfl,
    env_var_found (deployment.masterPod number) ENV_PROJECT_ID _ rfl,
      env_var_found (deployment.masterPod number) ENV_SPANNER_INSTANCE_ID _ rfl,
      env_var_found (deployment.masterPod number) ENV_DB_NAME _ rfl]
  simp only [bind, Except.bind, port, ordinal, stored_port]
  rfl

theorem frontend_pod_loads : FrontendConfig.loadFromEnv deployment.frontendPod =
      .ok ⟨deployment.masters, deployment.frontendPort⟩ := by
  have port : stoi (toString deployment.frontendPort.toNat) = .ok (deployment.frontendPort.toNat : Int) :=
    stoi_to_string (deployment.frontendPort.toNat : Int) (port_in_int _)
  have masters : stoi (toString deployment.masters) = .ok (deployment.masters : Int) :=
    stoi_to_string (deployment.masters : Int) ⟨by omega, by have := deployment.few; omega⟩
  rw [FrontendConfig.loadFromEnv, env_var_found deployment.frontendPod ENV_MASTERS_COUNT _ rfl,
    env_var_found deployment.frontendPod ENV_CONTAINER_PORT _ rfl]
  simp only [bind, Except.bind, port, masters, stored_port]
  rfl

theorem pod_address_shape (setName service : String) (number : Nat) (port : UInt16) :
    podAddress (podName setName number) service port = setName ++ "-" ++ toString number ++
      ("." ++ service ++ ":" ++ toString port.toNat) := by
  simp only [podAddress, podName, String.append_assoc]

-- The address that stands in the sources of the frontend and of the worker.
def masterAddress (number : Nat) : String := "master-" ++ toString number ++ ".master-service:50042"

theorem worker_pod_loads (number : Nat) (fits : number < 2 ^ 31) :
    WorkerConfig.loadFromEnv (deployment.workerPod number) =
      .ok ⟨deployment.workerPort, deployment.masters,
        podAddress (podName "worker" number) "worker-service" deployment.workerPort,
        masterAddress (number % deployment.masters)⟩ := by
  have port : stoi (toString deployment.workerPort.toNat) = .ok (deployment.workerPort.toNat : Int) :=
    stoi_to_string (deployment.workerPort.toNat : Int) (port_in_int _)
  have masters : stoi (toString deployment.masters) = .ok (deployment.masters : Int) :=
    stoi_to_string (deployment.masters : Int) ⟨by omega, by have := deployment.few; omega⟩
  have ordinal : getOrdinalFromHostname (podName "worker" number) = .ok (number : Int) :=
    ordinal_of_hostname "worker" (by decide) (number : Int) ⟨by omega, by omega⟩
  have some := deployment.some
  have remainder : modInt number deployment.masters = .ok ((number % deployment.masters : Nat) : Int) := by
    rw [modInt, if_neg (by omega), Int.tmod_eq_emod_of_nonneg (by omega)]
    rfl
  rw [WorkerConfig.loadFromEnv,
    env_var_found (deployment.workerPod number) ENV_CONTAINER_PORT _ rfl,
    env_var_found (deployment.workerPod number) ENV_MASTERS_COUNT _ rfl,
    env_var_found (deployment.workerPod number) ENV_HOSTNAME_SELF _ rfl]
  simp only [bind, Except.bind, port, masters, ordinal, remainder, stored_port]
  have address : podAddress (podName "worker" number) "worker-service" deployment.workerPort =
      podName "worker" number ++ ".worker-service:" ++ toString deployment.workerPort.toNat := by
    have service : ".worker-service:" = "." ++ "worker-service" ++ ":" := rfl
    simp only [podAddress, service, String.append_assoc]
  rw [address]
  rfl

-- A number in the middle of an address is read off it.
theorem number_between (before : String) {one two : Nat} {first second : String}
    (stops : ∀ letter, first.toList.head? = some letter → letter.isDigit = false)
    (alsoStops : ∀ letter, second.toList.head? = some letter → letter.isDigit = false)
    (same : before ++ toString one ++ first = before ++ toString two ++ second) :
    one = two ∧ first = second := by
  have digits : ∀ number : Nat, ∀ letter ∈ (toString number).toList, letter.isDigit = true := by
    intro number letter member
    rw [Nat.toString_eq_repr, Nat.toList_repr] at member
    exact Nat.isDigit_of_mem_toDigits (by decide) (by decide) member
  have letters := congrArg String.toList same
  simp only [String.toList_append, List.append_assoc] at letters
  have rest := List.append_cancel_left letters
  have taken := congrArg (List.takeWhile Char.isDigit) rest
  rw [take_digits _ _ (digits one) stops, take_digits _ _ (digits two) alsoStops] at taken
  rw [taken] at rest
  exact ⟨Nat.repr_inj.mp (String.toList_inj.mp taken), String.toList_inj.mp (List.append_cancel_left rest)⟩

theorem service_stops (service port : String) : ∀ letter,
      ("." ++ service ++ ":" ++ port).toList.head? = some letter → letter.isDigit = false := by
  intro letter first
  simp only [String.toList_append, List.append_assoc] at first
  obtain rfl := Option.some.inj first
  rfl

theorem pod_address_inj (setName service : String) (port : UInt16) (one two : Nat)
    (same : podAddress (podName setName one) service port =
      podAddress (podName setName two) service port) : one = two := by
  rw [pod_address_shape, pod_address_shape] at same
  exact (number_between (setName ++ "-") (service_stops _ _) (service_stops _ _) same).1

theorem master_address_is_pod (asked number : Nat) (port : UInt16) :
    masterAddress asked = podAddress (podName "master" number) "master-service" port ↔
      number = asked ∧ port = 50042 := by
  have shape : masterAddress asked = "master" ++ "-" ++ toString asked ++
      ("." ++ "master-service" ++ ":" ++ "50042") := rfl
  rw [shape, pod_address_shape]
  constructor
  · intro same
    obtain ⟨numbers, tails⟩ := number_between ("master" ++ "-") (service_stops _ _) (service_stops _ _) same
    have written : toString (50042 : Nat) = toString port.toNat := (String.append_right_inj _).mp tails
    have ports : 50042 = port.toNat := Nat.repr_inj.mp written
    exact ⟨numbers.symm, UInt16.toNat_inj.mp ports.symm⟩
  · intro same
    obtain ⟨rfl, rfl⟩ := same
    rfl

-- Some master listens at the address, and no other one.
def FoundAt (address : String) : Prop := ∃ number, deployment.MasterAt address number ∧ ∀ other,
      deployment.MasterAt address other → other = number

theorem master_found_iff (asked : Nat) (inside : asked < deployment.masters) :
    FoundAt deployment (masterAddress asked) ↔ deployment.masterPort = 50042 := by
  have few := deployment.few
  have loads : ∀ number, number < deployment.masters →
      ∀ config, MasterConfig.loadFromEnv (deployment.masterPod number) = .ok config →
      config.containerPort = deployment.masterPort := by
    intro number deployed config loaded
    rw [master_pod_loads deployment number (by omega)] at loaded
    obtain rfl := Except.ok.inj loaded
    rfl
  constructor
  · intro found
    obtain ⟨number, ⟨deployed, config, loaded, -, address⟩, -⟩ := found
    rw [loads number deployed config loaded] at address
    exact ((master_address_is_pod asked number _).mp address).2
  · intro port
    refine ⟨asked, ⟨inside, _, master_pod_loads deployment asked (by omega), rfl, ?_⟩, ?_⟩
    · exact (master_address_is_pod asked asked _).mpr ⟨rfl, port⟩
    · intro other at_
      obtain ⟨deployed, config, loaded, -, address⟩ := at_
      rw [loads other deployed config loaded] at address
      exact ((master_address_is_pod asked other _).mp address).1

-- Every pod loads its configuration, whatever its port. The frontend, for any blob, and
-- every worker ask at an address where exactly one master listens, if and only if the
-- masters listen at the port that stands in the sources; and no two workers register
-- under one address.
theorem deployment_agrees (stdHash : String → Nat) :
    (∀ number, number < deployment.masters → MasterConfig.loadFromEnv (deployment.masterPod number) =
      .ok ⟨deployment.masterPort, number, deployment.projectId, deployment.spannerInstanceId,
        deployment.dbName⟩) ∧
    ∃ frontend, FrontendConfig.loadFromEnv deployment.frontendPod = .ok frontend ∧
      (∀ blobHash, FoundAt deployment
          ((FrontendServiceImpl.mk frontend.mastersCount.toNat
            stdHash).getMasterServiceAddressBasedOnHash blobHash) ↔
        deployment.masterPort = 50042) ∧
      (∀ number, number < 2 ^ 31 →
        ∃ worker, WorkerConfig.loadFromEnv (deployment.workerPod number) = .ok worker ∧
        (FoundAt deployment worker.masterService ↔ deployment.masterPort = 50042) ∧
        ∀ other, other < 2 ^ 31 → ∀ config,
          WorkerConfig.loadFromEnv (deployment.workerPod other) = .ok config →
          config.myServiceAddress = worker.myServiceAddress → other = number) := by
  have some := deployment.some
  have few := deployment.few
  refine ⟨?_, _, frontend_pod_loads deployment, ?_, ?_⟩
  · intro number deployed
    exact master_pod_loads deployment number (by omega)
  · intro blobHash
    exact master_found_iff deployment (stdHash blobHash % deployment.masters) (Nat.mod_lt _ some)
  · intro number fits
    refine ⟨_, worker_pod_loads deployment number fits, master_found_iff deployment _ (Nat.mod_lt _ some), ?_⟩
    intro other alsoFits config loaded same
    rw [worker_pod_loads deployment other alsoFits] at loaded
    obtain rfl := Except.ok.inj loaded
    exact pod_address_inj _ _ _ _ _ same

def onKubernetes : Deployment where
  masters := 3
  some := by decide
  few := by decide
  masterPort := 50042
  workerPort := 50042
  frontendPort := 50042
  projectId := "blobs-project-449409"
  spannerInstanceId := "blob-store-main"
  dbName := "app-master"

theorem deployment_agrees_on_kubernetes :
    MasterConfig.loadFromEnv (onKubernetes.masterPod 2) =
        .ok ⟨50042, 2, "blobs-project-449409", "blob-store-main", "app-master"⟩ ∧
      (∃ frontend, FrontendConfig.loadFromEnv onKubernetes.frontendPod = .ok frontend ∧ ∀ blobHash,
        FoundAt onKubernetes
          ((FrontendServiceImpl.mk frontend.mastersCount.toNat
            String.length).getMasterServiceAddressBasedOnHash blobHash)) ∧
      ∃ worker, WorkerConfig.loadFromEnv (onKubernetes.workerPod 5) = .ok worker ∧
          FoundAt onKubernetes worker.masterService := by
  obtain ⟨masters, frontend, loaded, asks, workers⟩ := deployment_agrees onKubernetes String.length
  obtain ⟨worker, configured, registers, -⟩ := workers 5 (by decide)
  exact ⟨masters 2 (by decide), ⟨frontend, loaded, fun blobHash => (asks blobHash).mpr rfl⟩, worker,
    configured, registers.mpr rfl⟩

-- The name of a set must not have a dash of its own.
example : getOrdinalFromHostname "blob-worker-3" = .error (.invalidArgument "stoi") := by decide +kernel

end BlobStore
