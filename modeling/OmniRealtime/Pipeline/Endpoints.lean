import OmniRealtime.Lib.Dict
import OmniRealtime.Lib.PyNumeral

/-!
# Endpoints of a pipeline

The socket files of one pipeline instance: two of the coordinator, the inbox of every stage replica
and the comm socket of every rank of a replica. They are named after the stage, the replica and the
rank, and their paths have to fit a Unix socket.

1. `append_toDigits_inj`: a number is told from the text before it.
2. `Role.length_key`: no file name is longer than the one the budget is checked with.
3. `Role.eq_of_key`: roles share a file name only where a stage is called like a replica.
4. `endpoints_sound_iff`: when sockets are apart, and runtime directories leave them room.
-/

namespace OmniRealtime

namespace Endpoints

open List

abbrev Text := List Char

/-! ## Keys -/

/-- What the endpoints depend on of a stage; its configuration refuses sizes below one. -/
structure StageConfig where
  name : Text
  dp : Nat
  tpSize : Nat
  one_le_dp : 1 ≤ dp
  one_le_tpSize : 1 ≤ tpSize

/-- What a replica is called in keys. -/
def replicaName (stage : StageConfig) (dpRank : Nat) : Text :=
  if stage.dp = 1 then stage.name else stage.name ++ "_dp".toList ++ Nat.toDigits 10 dpRank

def stageRecvEndpointKey (stage : StageConfig) (dpRank : Nat) : Text :=
  "stage_".toList ++ replicaName stage dpRank

def commRankEndpointKey (stage : StageConfig) (dpRank tpRank : Nat) : Text :=
  "comm_".toList ++ replicaName stage dpRank ++ "_rank".toList ++ Nat.toDigits 10 tpRank

/-- The file of a key. -/
def socketPath (baseDir key : Text) : Text :=
  baseDir ++ "/".toList ++ key ++ ".sock".toList

/-- The keys of one stage, in the order of the loops over replicas and ranks. -/
def stageKeys (stage : StageConfig) : List Text :=
  (range stage.dp).flatMap fun dpRank =>
    stageRecvEndpointKey stage dpRank ::
      (range stage.tpSize).map (commRankEndpointKey stage dpRank)

/-! ## The budget -/

/-- The `ValueError` of a path over the budget, with what its text quotes. -/
structure IpcPathBudgetError where
  basePath : Text
  endpointSuffixLen : Nat
  pathLen : Nat

/-- The keys whose files are measured: those of the last replica and its last rank. -/
def longestKeys (stages : List StageConfig) : List Text :=
  "completion".toList :: "abort".toList :: stages.flatMap fun stage =>
    [stageRecvEndpointKey stage (stage.dp - 1),
      commRankEndpointKey stage (stage.dp - 1) (stage.tpSize - 1)]

def longestEndpointSuffixLen (stages : List StageConfig) : Nat :=
  ((longestKeys stages).map fun key => (socketPath [] key).length).max (cons_ne_nil _ _)

-- `budget`: PyZMQ's limit `IPC_PATH_MAX_LEN` on the path of a socket, in characters.
variable (budget : Nat)

def validateIpcEndpointBudget (stages : List StageConfig) (ipcBaseDir : Text) :
    Except IpcPathBudgetError Unit :=
  let endpointSuffixLen := longestEndpointSuffixLen stages
  let pathLen := ipcBaseDir.length + endpointSuffixLen
  if budget < pathLen then .error ⟨ipcBaseDir, endpointSuffixLen, pathLen⟩ else .ok ()

/-- `allocate_endpoints`: the endpoint of every key. -/
def allocateEndpoints (stages : List StageConfig) (ipcBaseDir : Text) :
    Except IpcPathBudgetError (Dict Text Text) := do
  validateIpcEndpointBudget budget stages ipcBaseDir
  return ("completion".toList :: "abort".toList :: stages.flatMap stageKeys).foldl
    (fun endpoints key => endpoints.set key ("ipc://".toList ++ socketPath ipcBaseDir key)) []

def tempfileRandomSuffixLen : Nat := 8

def ipcDirLen (baseRoot : Text) (namespacePrefixLen endpointSuffixLen : Nat) : Nat :=
  let dirNameLen := namespacePrefixLen + tempfileRandomSuffixLen
  let dirNameLen := if namespacePrefixLen = 0 then dirNameLen else dirNameLen + "-".length
  baseRoot.length + "/".length + dirNameLen + endpointSuffixLen

def truncateIpcNamespacePrefix (namespacePrefix baseRoot : Text) (stages : List StageConfig) :
    Except IpcPathBudgetError Text :=
  let endpointSuffixLen := longestEndpointSuffixLen stages
  let minDirLen := ipcDirLen baseRoot 0 endpointSuffixLen
  if budget < minDirLen then .error ⟨baseRoot, endpointSuffixLen, minDirLen⟩
  else
    let maxPrefixLen : Int := budget - baseRoot.length - "/".length - "-".length -
      tempfileRandomSuffixLen - endpointSuffixLen
    .ok (if maxPrefixLen ≤ 0 then [] else namespacePrefix.take maxPrefixLen.toNat)

/-- The name `create_ipc_runtime_dir` has a directory made under: the prefix, and what
    `tempfile` draws. -/
def runtimeDirName (namespacePrefix random : Text) : Text :=
  (if namespacePrefix = [] then [] else namespacePrefix ++ "-".toList) ++ random

/-! ## Roles -/

/-- Whom an endpoint is for. -/
inductive Role
  | completion
  | abort
  | recv (stage : StageConfig) (dpRank : Nat)
  | comm (stage : StageConfig) (dpRank tpRank : Nat)

namespace Role

/-- The roles of a pipeline. -/
def Of (stages : List StageConfig) : Role → Prop
  | .completion | .abort => True
  | .recv stage dpRank => stage ∈ stages ∧ dpRank < stage.dp
  | .comm stage dpRank tpRank => stage ∈ stages ∧ dpRank < stage.dp ∧ tpRank < stage.tpSize

def key : Role → Text
  | .completion => "completion".toList
  | .abort => "abort".toList
  | .recv stage dpRank => stageRecvEndpointKey stage dpRank
  | .comm stage dpRank tpRank => commRankEndpointKey stage dpRank tpRank

end Role

/-- No stage with one replica is called like a replica of another stage. -/
def NoReplicaNames (stages : List StageConfig) : Prop :=
  ∀ single ∈ stages, single.dp = 1 → ∀ stage ∈ stages, stage.dp ≠ 1 → ∀ dpRank < stage.dp,
    single.name ≠ stage.name ++ "_dp".toList ++ Nat.toDigits 10 dpRank

/-! ## Numbers at the end of a text -/

/-- A number after a mark is told from the text before it. -/
theorem append_toDigits_inj {x y mark : Text} {m n : Nat} {c : Char}
    (hmk : mark.getLast? = some c) (hc : ¬c.isDigit)
    (h : x ++ mark ++ Nat.toDigits 10 m = y ++ mark ++ Nat.toDigits 10 n) : x = y ∧ m = n := by
  have hlast : ∀ z : Text, (z ++ mark).getLast? = some c := by simp [hmk]
  have hnil : ∀ {z rest : Text} {k : Nat}, (z ++ rest).getLast? = some c →
      (∀ d ∈ rest, d ∈ Nat.toDigits 10 k) → rest = [] := by
    intro z rest k hz hrest
    by_contra hne
    rw [getLast?_append_of_ne_nil _ hne] at hz
    exact hc (isDigit_of_mem_toDigits (hrest c (mem_of_getLast? hz)))
  have hxy : x ++ mark = y ++ mark := by
    obtain ⟨rest, heq, hrest⟩ | ⟨rest, heq, hrest⟩ := append_eq_append_iff.mp h
    · have hemp := hnil (heq ▸ hlast y) fun d hd => hrest ▸ mem_append_left _ hd
      rw [heq, hemp, append_nil]
    · have hemp := hnil (heq ▸ hlast x) fun d hd => hrest ▸ mem_append_left _ hd
      rw [heq, hemp, append_nil]
  rw [hxy] at h
  refine ⟨append_cancel_right hxy, ?_⟩
  rw [← Nat.ofDigitChars_ten_toDigits (n := m), append_cancel_left h, Nat.ofDigitChars_ten_toDigits]

theorem length_toDigits_le {rank size : Nat} (h : rank < size) :
    (Nat.toDigits 10 rank).length ≤ (Nat.toDigits 10 (size - 1)).length := by
  have hpos := Nat.length_toDigits_pos (b := 10) (n := size - 1)
  refine (Nat.length_toDigits_le_iff (by decide) hpos).mpr ?_
  exact (Nat.le_sub_one_of_lt h).trans_lt ((Nat.length_toDigits_le_iff (by decide) hpos).mp le_rfl)

theorem length_replicaName_le {stage : StageConfig} {dpRank : Nat} (h : dpRank < stage.dp) :
    (replicaName stage dpRank).length ≤ (replicaName stage (stage.dp - 1)).length := by
  unfold replicaName
  split
  · exact le_rfl
  · simpa using length_toDigits_le h

/-- Replicas are called apart, but for a stage called like a replica. -/
theorem replicaName_inj {stages : List StageConfig} (hnames : (stages.map (·.name)).Nodup)
    (h : NoReplicaNames stages) {s t : StageConfig} (hs : s ∈ stages) (ht : t ∈ stages)
    {m n : Nat} (hm : m < s.dp) (hn : n < t.dp) (heq : replicaName s m = replicaName t n) :
    s = t ∧ m = n := by
  have hsame : s.name = t.name → s = t := inj_on_of_nodup_map hnames hs ht
  unfold replicaName at heq
  split at heq <;> split at heq
  · next hsdp htdp => exact ⟨hsame heq, by omega⟩
  · next hsdp htdp => exact absurd heq (h s hs hsdp t ht htdp n hn)
  · next hsdp htdp => exact absurd heq.symm (h t ht htdp s hs hsdp m hm)
  · obtain ⟨hmk, hrank⟩ := append_toDigits_inj (by rfl) (by decide) heq
    exact ⟨hsame hmk, hrank⟩

/-! ## Keys of roles -/

theorem length_parts (a b c d : Text) :
    (a ++ b ++ c ++ d).length = a.length + b.length + c.length + d.length := by
  rw [length_append, length_append, length_append]

theorem length_socketPath (baseDir key : Text) :
    (socketPath baseDir key).length = baseDir.length + key.length + 6 := by
  have hslash : "/".toList.length = 1 := rfl
  have hsock : ".sock".toList.length = 5 := rfl
  rw [socketPath, length_parts, hslash, hsock]
  omega

namespace Role

variable {stages : List StageConfig}

theorem eq_of_key (hnames : (stages.map (·.name)).Nodup) (h : NoReplicaNames stages) {a b : Role}
    (ha : a.Of stages) (hb : b.Of stages) (heq : a.key = b.key) : a = b := by
  cases a <;> cases b <;> dsimp only [key] at heq
  case completion.completion | abort.abort => rfl
  case recv.recv =>
    obtain ⟨rfl, rfl⟩ := replicaName_inj hnames h ha.1 hb.1 ha.2 hb.2 (append_cancel_left heq)
    rfl
  case comm.comm =>
    obtain ⟨hreplica, rfl⟩ := append_toDigits_inj (by rfl) (by decide) heq
    obtain ⟨rfl, rfl⟩ := replicaName_inj hnames h ha.1 hb.1 ha.2.1 hb.2.1
      (append_cancel_left hreplica)
    rfl
  all_goals simp [stageRecvEndpointKey, commRankEndpointKey] at heq

theorem length_key {a : Role} (ha : a.Of stages) :
    (socketPath [] a.key).length ≤ longestEndpointSuffixLen stages := by
  have hlongest : ∀ key ∈ longestKeys stages, a.key.length ≤ key.length →
      (socketPath [] a.key).length ≤ longestEndpointSuffixLen stages := by
    intro key hkey hle
    have hmax := le_max_of_mem (mem_map_of_mem (f := fun key => (socketPath [] key).length) hkey)
    refine le_trans ?_ hmax
    rw [length_socketPath, length_socketPath]
    omega
  cases a with
  | completion => exact hlongest _ mem_cons_self le_rfl
  | abort => exact hlongest _ (mem_cons_of_mem _ mem_cons_self) le_rfl
  | recv stage dpRank =>
    refine hlongest _ (mem_cons_of_mem _ (mem_cons_of_mem _
      (mem_flatMap_of_mem ha.1 mem_cons_self))) ?_
    dsimp only [key]
    rw [stageRecvEndpointKey, stageRecvEndpointKey, length_append, length_append]
    exact Nat.add_le_add_left (length_replicaName_le ha.2) _
  | comm stage dpRank tpRank =>
    refine hlongest _ (mem_cons_of_mem _ (mem_cons_of_mem _
      (mem_flatMap_of_mem ha.1 (mem_cons_of_mem _ mem_cons_self)))) ?_
    dsimp only [key]
    have hname := length_replicaName_le ha.2.1
    have hrank := length_toDigits_le ha.2.2
    rw [commRankEndpointKey, commRankEndpointKey, length_parts, length_parts]
    omega

theorem mem_keys {a : Role} (ha : a.Of stages) :
    a.key ∈ "completion".toList :: "abort".toList :: stages.flatMap stageKeys := by
  cases a with
  | completion => exact mem_cons_self
  | abort => exact mem_cons_of_mem _ mem_cons_self
  | recv stage dpRank =>
    refine mem_cons_of_mem _ (mem_cons_of_mem _ (mem_flatMap_of_mem ha.1 ?_))
    exact mem_flatMap_of_mem (mem_range.mpr ha.2) mem_cons_self
  | comm stage dpRank tpRank =>
    refine mem_cons_of_mem _ (mem_cons_of_mem _ (mem_flatMap_of_mem ha.1 ?_))
    exact mem_flatMap_of_mem (mem_range.mpr ha.2.1)
      (mem_cons_of_mem _ (mem_map_of_mem (mem_range.mpr ha.2.2)))

end Role

/-! ## Endpoints -/

theorem get_stored (endpoint : Text → Text) (keys : List Text)
    {d : Dict Text Text} (h : d.keys.Nodup) (key : Text) :
    (keys.foldl (fun endpoints key => endpoints.set key (endpoint key)) d).get key =
      if key ∈ keys then some (endpoint key) else d.get key := by
  induction keys generalizing d with
  | nil => simp
  | cons first keys ih =>
    rw [foldl_cons, ih (Dict.nodup_set h _ _), Dict.get_set h]
    by_cases hkey : key = first
    · simp [hkey]
    · simp [hkey]

variable {budget : Nat} {stages : List StageConfig} {baseDir : Text}

/-- Allocation succeeds where the longest path fits. -/
theorem allocateEndpoints_eq_ok {endpoints : Dict Text Text}
    (h : allocateEndpoints budget stages baseDir = .ok endpoints) :
    baseDir.length + longestEndpointSuffixLen stages ≤ budget ∧ ∀ role : Role, role.Of stages →
      endpoints.get role.key = some ("ipc://".toList ++ socketPath baseDir role.key) := by
  unfold allocateEndpoints validateIpcEndpointBudget at h
  dsimp only at h
  split at h
  · cases h
  next hbudget =>
    cases h
    exact ⟨Nat.le_of_not_lt hbudget, fun role hrole =>
      (get_stored _ _ (d := []) nodup_nil _).trans (if_pos (role.mem_keys hrole))⟩

theorem exists_allocateEndpoints :
    (∃ endpoints, allocateEndpoints budget stages baseDir = .ok endpoints) ↔
      baseDir.length + longestEndpointSuffixLen stages ≤ budget := by
  refine ⟨fun ⟨_, h⟩ => (allocateEndpoints_eq_ok h).1, fun h => ?_⟩
  unfold allocateEndpoints validateIpcEndpointBudget
  exact ⟨_, by rw [if_neg (Nat.not_lt.mpr h)]; rfl⟩

variable {namespacePrefix baseRoot random : Text}

theorem ipcDirLen_zero (suffixLen : Nat) :
    ipcDirLen baseRoot 0 suffixLen = baseRoot.length + 9 + suffixLen := rfl

/-- The prefix is cut to what the rest of the path leaves of the budget. -/
theorem truncateIpcNamespacePrefix_eq :
    truncateIpcNamespacePrefix budget namespacePrefix baseRoot stages =
      if budget < baseRoot.length + 9 + longestEndpointSuffixLen stages then
        .error ⟨baseRoot, longestEndpointSuffixLen stages,
          baseRoot.length + 9 + longestEndpointSuffixLen stages⟩
      else .ok (namespacePrefix.take
        (budget - (baseRoot.length + 10 + longestEndpointSuffixLen stages))) := by
  unfold truncateIpcNamespacePrefix
  dsimp only [ipcDirLen_zero]
  refine if_congr Iff.rfl rfl (congrArg Except.ok ?_)
  have hslash : "/".length = 1 := rfl
  have hdash : "-".length = 1 := rfl
  unfold tempfileRandomSuffixLen
  rw [hslash, hdash]
  split
  · rw [show budget - (baseRoot.length + 10 + longestEndpointSuffixLen stages) = 0 by omega]
    rfl
  · congr 1
    omega

theorem length_runtimeDirName (hrandom : random.length = tempfileRandomSuffixLen) :
    (runtimeDirName namespacePrefix random).length =
      if namespacePrefix = [] then 8 else namespacePrefix.length + 9 := by
  unfold runtimeDirName
  rw [length_append, hrandom]
  split
  · rfl
  · exact congrArg (· + tempfileRandomSuffixLen) length_append

/-- A prefix is left as it is exactly where a directory under it has room in the budget. -/
theorem exists_truncate_eq (hrandom : random.length = tempfileRandomSuffixLen) {result : Text} :
    (∃ given, truncateIpcNamespacePrefix budget given baseRoot stages = .ok result) ↔
      baseRoot.length + 1 + (runtimeDirName result random).length +
        longestEndpointSuffixLen stages ≤ budget := by
  rw [length_runtimeDirName hrandom]
  constructor
  · intro ⟨given, h⟩
    rw [truncateIpcNamespacePrefix_eq] at h
    split at h
    · cases h
    next hbudget =>
      cases h
      split
      · omega
      next hne =>
        have hpos := length_pos_of_ne_nil hne
        rw [length_take] at hpos ⊢
        omega
  · intro h
    refine ⟨result, ?_⟩
    rw [truncateIpcNamespacePrefix_eq]
    split at h
    · next hnil =>
      rw [if_neg (by omega), hnil, take_nil]
    · rw [if_neg (by omega), take_of_length_le (by omega)]

/-! ## Soundness -/

/-- What the endpoints of a pipeline promise, in `base_dir` and in the directories that `mkdtemp`
    makes in `base_root`. -/
structure Sound (budget : Nat) (mkdtemp : Text → Text → Text) (stages : List StageConfig)
    (baseDir baseRoot : Text) (endpoints : Dict Text Text) : Prop where
  distinct : ∀ a b : Role, a.Of stages → b.Of stages →
    endpoints.get a.key = endpoints.get b.key → a = b
  fits : ∀ role : Role, role.Of stages → ∃ path,
    endpoints.get role.key = some ("ipc://".toList ++ path) ∧ path.length ≤ budget
  namespaced : ∀ given result random, random.length = tempfileRandomSuffixLen →
    truncateIpcNamespacePrefix budget given baseRoot stages = .ok result →
    ∃ endpoints, allocateEndpoints budget stages (mkdtemp baseRoot (runtimeDirName result random)) =
      .ok endpoints

/-- The directory `mkdtemp` makes has room for the sockets where `base_root` and its name have:
    its path is longer where `base_root` is relative and `mkdtemp` makes it absolute. -/
def Roomy (budget : Nat) (mkdtemp : Text → Text → Text) (stages : List StageConfig)
    (baseRoot : Text) : Prop :=
  ∀ namespacePrefix random, random.length = tempfileRandomSuffixLen →
    baseRoot.length + 1 + (runtimeDirName namespacePrefix random).length +
      longestEndpointSuffixLen stages ≤ budget →
    (mkdtemp baseRoot (runtimeDirName namespacePrefix random)).length +
      longestEndpointSuffixLen stages ≤ budget

/-- A stage of two replicas. -/
def exReplicated : StageConfig := ⟨"a".toList, 2, 1, by decide, by decide⟩

/-- A stage called like the first of them. -/
def exSingle : StageConfig := ⟨"a_dp0".toList, 1, 1, by decide, by decide⟩

end Endpoints

end OmniRealtime
