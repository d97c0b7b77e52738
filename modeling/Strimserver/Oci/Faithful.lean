import Strimserver.Oci.Document

/-!
# The document read back

What a JSON parser makes of the text of `strim_oci_build_spec`, compared with the lists
that the builder was given: arguments, environment, mounts, device nodes, device rules and
hooks.

The text is that of `document` when no allocation fails, so the parser accepts it exactly
when all its strings are well-formed UTF-8. The builder copies every string it is given but
one. The path of the control group goes through a buffer of 512 octets, and the cut can
fall inside a character.
-/

namespace Strimserver.Oci

open Library List Json

/-! ## Reading a document -/

def field {α : Type} (read : Json → Option α) (key : String) (value : Json) : Option α :=
  (value.get? (ascii key)).bind read

/-- A member of an object, with what stands for its absence. -/
def fieldD {α : Type} (read : Json → Option α) (absent : α) (key : String) (value : Json) :
    Option α :=
  match value.get? (ascii key) with
  | none => some absent
  | some item => read item

def readStrings : Json → Option (List Octets) := Json.list? Json.str?

def readNat (value : Json) : Option ℕ := value.int?.map Int.toNat

/-- Reads a mount. -/
def readMount (value : Json) : Option DocMount := do
  let destination ← field Json.str? "destination" value
  let type ← field Json.str? "type" value
  let source ← field Json.str? "source" value
  let options ← field readStrings "options" value
  return ⟨destination, type, source, options⟩

/-- Reads a device. -/
def readDevice (value : Json) : Option CdiDevice := do
  let path ← field Json.str? "path" value
  let type ← field Json.str? "type" value
  let major ← field Json.int? "major" value
  let minor ← field Json.int? "minor" value
  let fileMode ← fieldD readNat 0 "fileMode" value
  let uid ← fieldD readNat 0 "uid" value
  let gid ← fieldD readNat 0 "gid" value
  return ⟨path, some type, major, minor, fileMode, uid, gid⟩

/-- A rule of `linux.resources.devices`. -/
structure DeviceRule where
  allow : Bool
  type : Option Octets
  major : Option ℤ
  minor : Option ℤ
  access : Octets

/-- Reads a rule. -/
def readRule (value : Json) : Option DeviceRule := do
  let allow ← field Json.bool? "allow" value
  let type ← fieldD (fun item => item.str?.map some) none "type" value
  let major ← fieldD (fun item => item.int?.map some) none "major" value
  let minor ← fieldD (fun item => item.int?.map some) none "minor" value
  let access ← field Json.str? "access" value
  return ⟨allow, type, major, minor, access⟩

/-- Reads a hook. -/
def readHook (value : Json) : Option Hook := do
  let path ← field Json.str? "path" value
  let args ← fieldD readStrings [] "args" value
  let env ← fieldD readStrings [] "env" value
  let timeout ← fieldD Json.int? 0 "timeout" value
  return ⟨path, args, env, timeout⟩

/-- The lists of the document. -/
structure Lists where
  args : List Octets
  env : List Octets
  mounts : List DocMount
  devices : List CdiDevice
  rules : List DeviceRule
  hooks : List Hook

/-- Reads the lists. -/
def readLists (doc : Json) : Option Lists := do
  let process ← field some "process" doc
  let args ← field readStrings "args" process
  let env ← field readStrings "env" process
  let mounts ← field (Json.list? readMount) "mounts" doc
  let linux ← field some "linux" doc
  let devices ← fieldD (Json.list? readDevice) [] "devices" linux
  let rules ← field (field (Json.list? readRule) "devices") "resources" linux
  let hooks ← fieldD (field (Json.list? readHook) "createContainer") [] "hooks" doc
  return ⟨args, env, mounts, devices, rules, hooks⟩

/-! ## What the builder is given -/

/-- The environment, with the entries of the edits whose key is not set yet. -/
def givenEnv (spec : Spec) (image : ImageConfig) (cdi : Option CdiEdits) : List Octets :=
  baseEnv spec image ++
    ((cdi.map CdiEdits.env).getD []).filter fun entry => !envHasKey (baseEnv spec image) entry

def denyRule : DeviceRule := ⟨false, none, none, none, ascii "rwm"⟩

def allowRule (d : CdiDevice) : DeviceRule :=
  ⟨true, some (ascii "c"), some d.major, some d.minor, ascii "rwm"⟩

def givenLists (spec : Spec) (image : ImageConfig) (cdi : Option CdiEdits) : Lists where
  args := image.entrypoint ++ argsTail spec image
  env := givenEnv spec image cdi
  mounts := docMounts spec cdi
  devices := (docDevices cdi).map CdiDevice.typed
  rules := denyRule :: ((docDevices cdi).filter CdiDevice.allowed).map allowRule
  hooks := docHooks spec cdi

def Hook.texts (h : Hook) : List Octets := h.path :: (h.args ++ h.env)

def Spec.texts (spec : Spec) : List Octets :=
  spec.process.args ++ spec.process.env ++ spec.process.capabilities ++
    spec.mounts.flatMap (fun m => [m.source, m.destination]) ++ spec.cgroupsPath.toList ++
    spec.hooks.flatMap Hook.texts

def ImageConfig.texts (image : ImageConfig) : List Octets :=
  image.env ++ image.entrypoint ++ image.cmd ++ image.workingDir.toList

def CdiEdits.texts (edits : CdiEdits) : List Octets :=
  edits.env ++ edits.mounts.flatMap (fun m => m.hostPath :: m.containerPath :: m.options) ++
    edits.devices.flatMap (fun d => d.path :: d.type.toList) ++ edits.hooks.flatMap Hook.texts

def givenTexts (spec : Spec) (image : ImageConfig) (ns : Option Octets) (containerId : Octets)
    (cdi : Option CdiEdits) : List Octets :=
  spec.texts ++ image.texts ++ ns.toList ++ [containerId] ++ (cdi.map CdiEdits.texts).getD []

/-! ## Reading back -/

variable {α : Type}

variable {read : Json → Option α} {value item : Json} {key : String}

theorem list_cons {items : List Json} {x : α} {xs : List α} (first : read item = some x)
    (rest : Json.list? read (.arr items) = some xs) :
    Json.list? read (.arr (item :: items)) = some (x :: xs) := by
  have rest' : items.mapM read = some xs := rest
  show (item :: items).mapM read = some (x :: xs)
  rw [mapM_cons, first, rest']
  rfl

theorem list_map {β : Type} {read : Json → Option β} {json : α → Json} {image : α → β}
    (reads : ∀ x, read (json x) = some (image x)) (xs : List α) :
    Json.list? read (.arr (xs.map json)) = some (xs.map image) := by
  induction xs with
  | nil => rfl
  | cons x xs ih => exact list_cons (reads x) ih

theorem list_map_id {json : α → Json} (reads : ∀ x, read (json x) = some x) (xs : List α) :
    Json.list? read (.arr (xs.map json)) = some xs := by
  rw [list_map reads xs, map_id']

theorem readStrings_strings (items : List Octets) : readStrings (strings items) = some items := by
  have reads : ∀ s, Json.str? (.str s) = some s := fun _ => rfl
  exact list_map_id reads items

theorem field_eq (get : value.get? (ascii key) = some item) : field read key value = read item := by
  rw [field, get, Option.bind_some]

/-- A member read from an object whose members before it have other names. -/
theorem fieldD_optional {absent x : α} (condition : Bool)
    (get : value.get? (ascii key) = if condition then some item else none)
    (reads : read item = some x) (left : condition = false → x = absent) :
    fieldD read absent key value = some x := by
  rw [fieldD, get]
  cases condition with
  | false => rw [left rfl]; rfl
  | true => exact reads

section

variable (key name : String) (value : Json) (members : List (Octets × Json))

theorem get_member : Json.get? (ascii key) (.obj (member name value ++ members)) =
    if ascii name = ascii key then some value else Json.get? (ascii key) (.obj members) := rfl

theorem get_optional (condition : Bool) :
    Json.get? (ascii key) (.obj (optional condition name value ++ members)) =
      if condition ∧ ascii name = ascii key then some value
      else Json.get? (ascii key) (.obj members) := by
  cases condition with
  | false => rw [if_neg (fun both => Bool.false_ne_true both.1)]; rfl
  | true =>
    have same : (true = true ∧ ascii name = ascii key) ↔ ascii name = ascii key := by simp
    rw [if_congr same rfl rfl]
    rfl

theorem get_last (condition : Bool) :
    Json.get? (ascii key) (.obj (optional condition name value)) =
      if condition ∧ ascii name = ascii key then some value else none := by
  rw [← append_nil (optional condition name value), get_optional]
  rfl

end

theorem readMount_json (m : DocMount) : readMount m.json = some m := by
  have options : field readStrings "options" m.json = some m.options :=
    readStrings_strings m.options
  unfold readMount
  rw [options]
  rfl

theorem readNat_number (n : ℕ) : readNat (number n) = some n := rfl

theorem readInt_number (z : ℤ) : Json.int? (number z) = some z := rfl

variable (d : CdiDevice)

theorem readDevice_json : readDevice (deviceJson d) = some d.typed := by
  have read : fieldD readNat 0 "fileMode" (deviceJson d) = some d.fileMode ∧
      fieldD readNat 0 "uid" (deviceJson d) = some d.uid ∧
      fieldD readNat 0 "gid" (deviceJson d) = some d.gid := by
    refine ⟨fieldD_optional (d.fileMode ≠ 0) ?_ (readNat_number _) (by simp),
      fieldD_optional (d.uid ≠ 0) ?_ (readNat_number _) (by simp),
      fieldD_optional (d.gid ≠ 0) ?_ (readNat_number _) (by simp)⟩
    all_goals
      simp +decide only [deviceJson, append_assoc, get_member, get_optional, get_last]
      simp
  rw [readDevice, read.1, read.2.1, read.2.2]
  rfl

theorem readHook_json (h : Hook) : readHook (hookJson h) = some h := by
  have read : fieldD readStrings [] "args" (hookJson h) = some h.args ∧
      fieldD readStrings [] "env" (hookJson h) = some h.env ∧
      fieldD Json.int? 0 "timeout" (hookJson h) = some h.timeout := by
    refine ⟨fieldD_optional (h.args ≠ []) ?_ (readStrings_strings _) (by simp),
      fieldD_optional (h.env ≠ []) ?_ (readStrings_strings _) (by simp),
      fieldD_optional (h.timeout ≠ 0) ?_ (readInt_number _) (by simp)⟩
    all_goals
      simp +decide only [hookJson, append_assoc, get_member, get_optional, get_last]
      simp
  rw [readHook, read.1, read.2.1, read.2.2]
  rfl

theorem readRule_allow : readRule (allowJson d) = some (allowRule d) := rfl

/-- The loop that keeps what a test accepts is the filter, as long as there is room. -/
theorem collect_eq (cap : ℕ) (keep : α → Bool) (xs acc : List α)
    (room : acc.length + (xs.filter keep).length ≤ cap) :
    collect cap (fun _ x => keep x) xs acc = acc ++ xs.filter keep := by
  induction xs generalizing acc with
  | nil => rw [collect, filter_nil, append_nil]
  | cons x xs ih =>
    rw [collect]
    rw [filter_cons] at room ⊢
    cases kept : keep x with
    | false =>
      rw [kept, if_neg Bool.false_ne_true] at room
      rw [if_neg Bool.false_ne_true, if_neg Bool.false_ne_true, ih acc room]
      split
      · rfl
      -- A full list leaves no room for anything that would be kept.
      have full : xs.filter keep = [] := eq_nil_of_length_eq_zero (by omega)
      rw [full, append_nil]
    | true =>
      rw [kept, if_pos rfl, length_cons] at room
      rw [if_pos rfl, if_pos rfl, if_pos (by omega), ih (acc ++ [x])]
      · rw [append_assoc, singleton_append]
      · rw [length_append, length_singleton]
        omega

section

variable (host : Host) (spec : Spec) (image : ImageConfig) (ns : Option Octets)
  (containerId : Octets) (cdi : Option CdiEdits)

theorem mergedEnv_eq (room : (givenEnv spec image cdi).length ≤ specMaxEnv) :
    mergedEnv spec image cdi = givenEnv spec image cdi := by
  rw [givenEnv, length_append] at room
  have base : collect specMaxEnv (fun _ _ => true) (baseEnv spec image) [] =
      baseEnv spec image := by
    have kept := collect_eq specMaxEnv (fun _ => true) (baseEnv spec image) []
    rw [filter_true, nil_append] at kept
    exact kept (by rw [length_nil]; omega)
  cases cdi with
  | none =>
    rw [mergedEnv, base, givenEnv]
    exact (append_nil _).symm
  | some edits =>
    rw [mergedEnv, base]
    exact collect_eq specMaxEnv (fun entry => !envHasKey (baseEnv spec image) entry) edits.env
      (baseEnv spec image) room

theorem process_document : field some "process" (document host spec image ns containerId cdi) =
    some (processJson host spec image cdi) :=
  field_eq (by simp +decide only [document, append_assoc, get_member]; rfl)

theorem linux_document : field some "linux" (document host spec image ns containerId cdi) =
    some (linuxJson spec ns containerId cdi) :=
  field_eq (by simp +decide only [document, append_assoc, get_member]; rfl)

theorem env_processJson : field readStrings "env" (processJson host spec image cdi) =
    some (mergedEnv spec image cdi) := by
  rw [field_eq (by simp +decide only [processJson, append_assoc, get_member]; rfl),
    readStrings_strings]

theorem rules_linuxJson : field (field (Json.list? readRule) "devices") "resources"
    (linuxJson spec ns containerId cdi) = some (givenLists spec image cdi).rules := by
  have deny : readRule denyJson = some denyRule := rfl
  have rules := list_cons deny
    (list_map readRule_allow ((docDevices cdi).filter CdiDevice.allowed))
  exact rules

/-- The document has the lists that the builder was given. -/
theorem readLists_document (room : (givenEnv spec image cdi).length ≤ specMaxEnv) :
    readLists (document host spec image ns containerId cdi) = some (givenLists spec image cdi) := by
  have args := readStrings_strings (image.entrypoint ++ argsTail spec image)
  have mounts := list_map_id readMount_json (docMounts spec cdi)
  have devices : fieldD (Json.list? readDevice) [] "devices" (linuxJson spec ns containerId cdi) =
      some ((docDevices cdi).map CdiDevice.typed) := by
    refine fieldD_optional (docDevices cdi ≠ []) ?_
      (list_map readDevice_json (docDevices cdi)) (by simp)
    simp +decide only [linuxJson, append_assoc, get_member, get_last]
    simp
  have hooks : fieldD (field (Json.list? readHook) "createContainer") [] "hooks"
      (document host spec image ns containerId cdi) = some (docHooks spec cdi) := by
    have hooksRead : field (Json.list? readHook) "createContainer"
        (.obj (member "createContainer" (.arr ((docHooks spec cdi).map hookJson)))) =
        some (docHooks spec cdi) := list_map_id readHook_json (docHooks spec cdi)
    refine fieldD_optional (docHooks spec cdi ≠ []) ?_ hooksRead (by simp)
    simp +decide only [document, append_assoc, get_member, get_last]
    simp
  have readArgs : field readStrings "args" (processJson host spec image cdi) =
      some (image.entrypoint ++ argsTail spec image) := by
    rw [field_eq (by simp +decide only [processJson, append_assoc, get_member]; rfl), args]
  have readMounts :
      field (Json.list? readMount) "mounts" (document host spec image ns containerId cdi) =
      some (docMounts spec cdi) := by
    rw [field_eq (by simp +decide only [document, append_assoc, get_member]; rfl), mounts]
  simp only [readLists, process_document, linux_document, readArgs, env_processJson,
    mergedEnv_eq spec image cdi room, readMounts, devices, rules_linuxJson spec image, hooks,
    Option.bind_eq_bind, Option.bind_some]
  rfl

/-! ## Well-formed strings -/

section

variable (P : Octets × Json → Prop) (key : String) (value : Json)

theorem forall_member : (∀ m ∈ member key value, P m) ↔ P (ascii key, value) := forall_mem_singleton

theorem forall_optional (condition : Bool) :
    (∀ m ∈ optional condition key value, P m) ↔ (condition = true → P (ascii key, value)) := by
  cases condition with
  | false => exact ⟨fun _ holds => absurd holds Bool.false_ne_true, fun _ m mem => nomatch mem⟩
  | true => exact (forall_member P key value).trans ⟨fun holds _ => holds, fun holds => holds rfl⟩

end

theorem wellFormed_strings {items : List Octets} :
    Json.WellFormed (strings items) ↔ ∀ s ∈ items, Utf8.Valid s := by
  simp only [strings, wellFormed_arr, forall_mem_map, wellFormed_str]

theorem forall_nonempty (items : List α) [Decidable (items ≠ [])] (P : α → Prop) :
    (decide (items ≠ []) = true → ∀ x ∈ items, P x) ↔ ∀ x ∈ items, P x := by
  refine ⟨fun all x mem => all (decide_eq_true (ne_nil_of_mem mem)) x mem, fun all _ => all⟩

theorem wellFormed_hook (h : Hook) :
    Json.WellFormed (hookJson h) ↔ ∀ s ∈ h.texts, Utf8.Valid s := by
  simp +decide only [hookJson, Hook.texts, wellFormed_obj, forall_mem_append, forall_member,
    forall_optional, wellFormed_str, wellFormed_strings, number, wellFormed_num, forall_mem_cons,
    forall_nonempty, true_and, and_true, implies_true, and_assoc]

theorem wellFormed_mount (m : DocMount) :
    m.json.WellFormed ↔ Utf8.Valid m.destination ∧ Utf8.Valid m.type ∧ Utf8.Valid m.source ∧
      ∀ s ∈ m.options, Utf8.Valid s := by
  simp +decide only [DocMount.json, mountJson, wellFormed_obj, forall_mem_append, forall_member,
    wellFormed_str, wellFormed_strings, true_and, and_assoc]

theorem wellFormed_device :
    Json.WellFormed (deviceJson d) ↔ Utf8.Valid d.path ∧ Utf8.Valid (d.type.getD (ascii "c")) := by
  simp +decide only [deviceJson, wellFormed_obj, forall_mem_append, forall_member, forall_optional,
    wellFormed_str, number, wellFormed_num, true_and, and_true, implies_true]

theorem wellFormed_allow : Json.WellFormed (allowJson d) := by
  simp +decide only [allowJson, wellFormed_obj, forall_mem_append, forall_member, literal,
    wellFormed_str, wellFormed_bool, number, wellFormed_num, and_self]

theorem wellFormed_user (uid gid : ℕ) (gids : List ℕ) :
    Json.WellFormed (userJson uid gid gids) := by
  simp +decide only [userJson, wellFormed_obj, forall_mem_append, forall_optional, number,
    wellFormed_num, wellFormed_arr, forall_mem_map, implies_true, and_self]

theorem wellFormed_rlimits : Json.WellFormed rlimitsJson := by
  simp +decide only [rlimitsJson, wellFormed_obj, forall_mem_append, forall_member, number, literal,
    wellFormed_num, wellFormed_str, wellFormed_arr, forall_mem_singleton, and_self]

theorem wellFormed_process : Json.WellFormed (processJson host spec image cdi) ↔
      (∀ s ∈ image.entrypoint ++ argsTail spec image, Utf8.Valid s) ∧
      (∀ s ∈ mergedEnv spec image cdi, Utf8.Valid s) ∧ Utf8.Valid (cwd image) ∧
      ∀ s ∈ mergedCaps spec, Utf8.Valid s := by
  simp +decide only [processJson, wellFormed_obj, forall_member, wellFormed_str, forall_mem_append,
    wellFormed_bool, wellFormed_strings, wellFormed_user, wellFormed_rlimits, true_and, and_true,
    and_assoc, and_self]

theorem wellFormed_rules : Json.WellFormed
      (.arr (denyJson :: ((docDevices cdi).filter CdiDevice.allowed).map allowJson)) := by
  have deny : Json.WellFormed denyJson := by
    simp +decide only [denyJson, wellFormed_obj, forall_mem_append, forall_member, literal,
      wellFormed_str, wellFormed_bool, and_self]
  rw [wellFormed_arr, forall_mem_cons, forall_mem_map]
  exact ⟨deny, fun d _ => wellFormed_allow d⟩

/-- The texts that the builder brings along are well-formed. -/
theorem valid_fixed :
    (∀ s ∈ defaultUnixEnv, Utf8.Valid s) ∧ (∀ s ∈ defaultCaps, Utf8.Valid s) ∧
    (∀ m ∈ defaultMounts.map DefaultMount.doc, Utf8.Valid m.destination ∧
      Utf8.Valid m.type ∧ Utf8.Valid m.source ∧ ∀ s ∈ m.options, Utf8.Valid s) ∧
    Utf8.Valid (ascii "/") ∧ Utf8.Valid (ascii "c") ∧ Utf8.Valid (ascii "bind") ∧
    Utf8.Valid (ascii "rbind") ∧ Utf8.Valid (ascii "rw") ∧ Utf8.Valid (ascii "ro") ∧
    (∀ s ∈ ["pid", "ipc", "uts", "mount"].map ascii, Utf8.Valid s) ∧
      Utf8.Valid (ascii "network") := by
  decide

theorem wellFormed_namespaces :
    Json.WellFormed (.arr ((namespaces spec).map namespaceJson)) := by
  obtain ⟨-, -, -, -, -, -, -, -, -, private_, network⟩ := valid_fixed
  have names : ∀ name ∈ namespaces spec, Utf8.Valid name := by
    intro name mem
    rcases mem_append.mp mem with always | own
    · exact private_ name always
    rcases host : spec.hostNetwork with _ | _
    · rw [host] at own
      cases mem_singleton.mp own
      exact network
    · rw [host] at own
      cases own
  simp +decide only [wellFormed_arr, forall_mem_map, namespaceJson, wellFormed_obj, forall_member,
    wellFormed_str, true_and]
  exact names

theorem wellFormed_linux : Json.WellFormed (linuxJson spec ns containerId cdi) ↔
      Utf8.Valid (cgpath spec ns containerId) ∧
        ∀ d ∈ docDevices cdi, Utf8.Valid d.path ∧ Utf8.Valid (d.type.getD (ascii "c")) := by
  have devices : (decide (docDevices cdi ≠ []) = true →
      Json.WellFormed (.arr ((docDevices cdi).map deviceJson))) ↔
      ∀ d ∈ docDevices cdi, Utf8.Valid d.path ∧ Utf8.Valid (d.type.getD (ascii "c")) := by
    simp only [wellFormed_arr, forall_mem_map, wellFormed_device]
    exact forall_nonempty _ _
  simp +decide only [linuxJson, wellFormed_obj, forall_mem_append, forall_member, forall_optional,
    wellFormed_strings, wellFormed_str, wellFormed_rules, wellFormed_namespaces, devices, true_and,
    and_true]

theorem wellFormed_document :
    Json.WellFormed (document host spec image ns containerId cdi) ↔
      Json.WellFormed (processJson host spec image cdi) ∧
      (∀ m ∈ docMounts spec cdi, m.json.WellFormed) ∧
      Json.WellFormed (linuxJson spec ns containerId cdi) ∧
      ∀ h ∈ docHooks spec cdi, Json.WellFormed (hookJson h) := by
  have hooks : (decide (docHooks spec cdi ≠ []) = true →
      ∀ h ∈ docHooks spec cdi, Json.WellFormed (hookJson h)) ↔
      ∀ h ∈ docHooks spec cdi, Json.WellFormed (hookJson h) := forall_nonempty _ _
  simp +decide only [document, wellFormed_obj, forall_mem_append, forall_member, forall_optional,
    literal, wellFormed_str, wellFormed_arr, forall_mem_map, hooks, true_and, and_true, and_assoc]

theorem mem_collect {cap : ℕ} {keep : List α → α → Bool} {xs acc : List α} {x : α}
    (mem : x ∈ collect cap keep xs acc) : x ∈ acc ∨ x ∈ xs := by
  induction xs generalizing acc with
  | nil => exact .inl mem
  | cons y xs ih =>
    rw [collect] at mem
    split at mem
    · rcases ih mem with kept | later
      · split at kept
        · rcases mem_append.mp kept with before | new
          · exact .inl before
          · exact .inr (mem_singleton.mp new ▸ mem_cons_self)
        · exact .inl kept
      · exact .inr (mem_cons_of_mem _ later)
    · exact .inl mem

section

variable {spec image ns containerId cdi}

theorem mem_givenTexts {s : Octets} :
    s ∈ givenTexts spec image ns containerId cdi ↔
      s ∈ spec.texts ∨ s ∈ image.texts ∨ s ∈ ns ∨ s = containerId ∨
        ∃ edits ∈ cdi, s ∈ edits.texts := by
  cases cdi <;> simp [givenTexts]

variable (texts : ∀ s ∈ givenTexts spec image ns containerId cdi, Utf8.Valid s)

include texts

theorem valid_args : ∀ s ∈ image.entrypoint ++ argsTail spec image, Utf8.Valid s := by
  intro s mem
  refine texts s (mem_givenTexts.mpr ?_)
  rcases mem_append.mp mem with entry | tail
  · simp [ImageConfig.texts, entry]
  unfold argsTail at tail
  split at tail
  · simp [Spec.texts, tail]
  · simp [ImageConfig.texts, tail]

theorem valid_env : ∀ s ∈ mergedEnv spec image cdi, Utf8.Valid s := by
  have base : ∀ s ∈ baseEnv spec image, Utf8.Valid s := by
    intro s mem
    unfold baseEnv at mem
    split at mem
    · exact texts s (mem_givenTexts.mpr (by simp [Spec.texts, mem]))
    split at mem
    · exact texts s (mem_givenTexts.mpr (by simp [ImageConfig.texts, mem]))
    · exact valid_fixed.1 s mem
  have all : ∀ s ∈ collect specMaxEnv (fun _ _ => true) (baseEnv spec image) [], Utf8.Valid s :=
    fun s mem => base s ((mem_collect mem).resolve_left not_mem_nil)
  cases cdi with
  | none => exact all
  | some =>
    intro s mem
    rcases mem_collect mem with before | added
    · exact all s before
    · exact texts s (mem_givenTexts.mpr (by simp [CdiEdits.texts, added]))

theorem valid_cwd : Utf8.Valid (cwd image) := by
  obtain ⟨-, -, -, root, -⟩ := valid_fixed
  unfold cwd
  cases dir : image.workingDir with
  | none => exact root
  | some path =>
    dsimp only
    split
    · exact root
    · exact texts path (mem_givenTexts.mpr (by simp [ImageConfig.texts, dir]))

theorem valid_caps : ∀ s ∈ mergedCaps spec, Utf8.Valid s := by
  intro s mem
  rcases mem_collect mem with default | added
  · exact valid_fixed.2.1 s ((mem_collect default).resolve_left not_mem_nil)
  · exact texts s (mem_givenTexts.mpr (by simp [Spec.texts, added]))

theorem valid_mounts : ∀ m ∈ docMounts spec cdi, m.json.WellFormed := by
  obtain ⟨-, -, defaults, -, -, bind, rbind, rw_, ro, -⟩ := valid_fixed
  intro m mem
  rw [wellFormed_mount]
  rcases mem_append.mp mem with front | edited
  · rcases mem_append.mp front with default | given
    · exact defaults m default
    obtain ⟨mount, isMount, rfl⟩ := mem_map.mp given
    have valid : ∀ s ∈ [mount.source, mount.destination], Utf8.Valid s := by
      intro s here
      refine texts s (mem_givenTexts.mpr (.inl ?_))
      simp only [Spec.texts, mem_append, mem_flatMap]
      exact .inl (.inl (.inr ⟨mount, isMount, here⟩))
    rw [forall_mem_cons, forall_mem_singleton] at valid
    refine ⟨valid.2, bind, valid.1, ?_⟩
    intro s mem
    rcases mem_cons.mp mem with rfl | mode
    · exact rbind
    rw [mem_singleton] at mode
    subst mode
    split
    · exact rw_
    · exact ro
  obtain ⟨mount, isMount, rfl⟩ := mem_map.mp edited
  cases cdi with
  | none => cases isMount
  | some edits =>
    have valid : ∀ s ∈ mount.hostPath :: mount.containerPath :: mount.options, Utf8.Valid s := by
      intro s here
      refine texts s (mem_givenTexts.mpr (.inr (.inr (.inr (.inr ⟨edits, rfl, ?_⟩)))))
      simp only [CdiEdits.texts, mem_append, mem_flatMap]
      exact .inl (.inl (.inr ⟨mount, isMount, here⟩))
    rw [forall_mem_cons, forall_mem_cons] at valid
    exact ⟨valid.2.1, bind, valid.1, valid.2.2⟩

theorem valid_devices :
    ∀ d ∈ docDevices cdi, Utf8.Valid d.path ∧ Utf8.Valid (d.type.getD (ascii "c")) := by
  intro d mem
  cases cdi with
  | none => cases mem
  | some edits =>
    have valid : ∀ s ∈ d.path :: d.type.toList, Utf8.Valid s := by
      intro s here
      refine texts s (mem_givenTexts.mpr (.inr (.inr (.inr (.inr ⟨edits, rfl, ?_⟩)))))
      simp only [CdiEdits.texts, mem_append, mem_flatMap]
      exact .inl (.inr ⟨d, mem, here⟩)
    rw [forall_mem_cons] at valid
    refine ⟨valid.1, ?_⟩
    cases type : d.type with
    | none =>
      obtain ⟨-, -, -, -, char, -⟩ := valid_fixed
      exact char
    | some type' => exact valid.2 type' (by rw [type]; exact mem_singleton_self _)

theorem valid_hooks : ∀ h ∈ docHooks spec cdi, Json.WellFormed (hookJson h) := by
  intro h mem
  rw [wellFormed_hook]
  intro s here
  refine texts s (mem_givenTexts.mpr ?_)
  rcases mem_append.mp mem with given | edited
  · left
    simp only [Spec.texts, mem_append, mem_flatMap]
    exact .inr ⟨h, given, here⟩
  cases cdi with
  | none => cases edited
  | some edits =>
    refine .inr (.inr (.inr (.inr ⟨edits, rfl, ?_⟩)))
    simp only [CdiEdits.texts, mem_append, mem_flatMap]
    exact .inr ⟨h, edited, here⟩

end

/-! ## Faithfulness -/

theorem parse_document_iff (texts : ∀ s ∈ givenTexts spec image ns containerId cdi, Utf8.Valid s) :
    Json.parse (Json.render (document host spec image ns containerId cdi)) =
      if Utf8.Valid (cgpath spec ns containerId) then
        some (document host spec image ns containerId cdi)
      else none := by
  refine (parse_render _).trans (if_congr ?_ rfl rfl)
  show Json.WellFormed _ ↔ _
  rw [wellFormed_document, wellFormed_process, wellFormed_linux]
  constructor
  · exact fun ⟨_, _, ⟨path, _⟩, _⟩ => path
  · exact fun path => ⟨⟨valid_args texts, valid_env texts, valid_cwd texts, valid_caps texts⟩,
      valid_mounts texts, ⟨path, valid_devices texts⟩, valid_hooks texts⟩

end

/-- **The document is faithful exactly when the cut path is well-formed.** With every allocation
granted, well-formed strings and room for the environment, the returned text is read by a JSON
parser with the lists that the builder was given just if the first 511 octets of the control group's
path are well-formed UTF-8. -/
theorem document_faithful_iff (alloc : ℕ → Bool) (sound : ∀ n, alloc n = true) (host : Host)
    (spec : Spec) (image : ImageConfig) (ns : Option Octets) (containerId : Octets)
    (cdi : Option CdiEdits) (texts : ∀ s ∈ givenTexts spec image ns containerId cdi, Utf8.Valid s)
    (room : (givenEnv spec image cdi).length ≤ specMaxEnv) :
    (∀ text, buildSpec alloc host spec image ns containerId cdi = some text →
      ∃ doc, Json.parse text = some doc ∧ readLists doc = some (givenLists spec image cdi)) ↔
    Utf8.Valid ((cgroupsPath spec ns containerId).take 511) := by
  have parsed := parse_document_iff host spec image ns containerId cdi texts
  rw [buildSpec_eq alloc sound]
  change _ ↔ Utf8.Valid (cgpath spec ns containerId)
  constructor
  · intro faithful
    obtain ⟨doc, accepted, _⟩ := faithful _ rfl
    by_contra broken
    rw [parsed, if_neg broken] at accepted
    cases accepted
  intro valid text returned
  cases returned
  exact ⟨_, parsed.trans (if_pos valid), readLists_document host spec image ns containerId cdi room⟩

/-- The edits of a device, one of each kind. -/
def gpuEdits : CdiEdits where
  env := [ascii "GPU=0"]
  mounts := [⟨ascii "/usr/lib/libcuda.so", ascii "/usr/lib/libcuda.so", [ascii "ro"]⟩]
  devices := [⟨ascii "/dev/nvidia0", some (ascii "c"), 195, 0, 0, 0, 0⟩]
  hooks := [⟨ascii "/usr/bin/nvidia-ctk", [ascii "hook"], [], 0⟩]
  additionalGids := [44]

/-- A spec with a command, a variable, a capability, a mount and a hook. -/
def fullSpec : Spec where
  process := ⟨[ascii "ffmpeg", ascii "-i"], [ascii "A=1"], [ascii "CAP_KILL"]⟩
  mounts := [⟨ascii "/srv", ascii "/srv", true⟩]
  hostNetwork := false
  cgroupsPath := none
  hooks := [⟨ascii "/bin/true", [], [ascii "B=2"], 5⟩]

/-- A spec with nothing of its own but the path of the control group. -/
def bareSpec (path : Option Octets) : Spec where
  process := ⟨[], [], []⟩
  mounts := []
  hostNetwork := true
  cgroupsPath := path
  hooks := []

/-- An image with a command. -/
def bareImage : ImageConfig := ⟨[], [ascii "mediamtx"], [], none, none⟩

/-- A host without the files of users and groups. -/
def bareHost : Host := ⟨none, none⟩

/-- The document with all of these. -/
theorem document_faithful_full :
    ∃ text doc, buildSpec (fun _ => true) bareHost fullSpec bareImage none (ascii "normalize")
        (some gpuEdits) = some text ∧ Json.parse text = some doc ∧
      readLists doc = some (givenLists fullSpec bareImage (some gpuEdits)) := by
  have built := buildSpec_eq (fun _ => true) (fun _ => rfl) bareHost fullSpec bareImage none
    (ascii "normalize") (some gpuEdits)
  obtain ⟨doc, parsed, lists⟩ := (document_faithful_iff (fun _ => true) (fun _ => rfl) bareHost
    fullSpec bareImage none (ascii "normalize") (some gpuEdits) (by decide +kernel)
    (by decide)).mpr (by decide) _ built
  exact ⟨_, doc, built, parsed, lists⟩

/-- A well-formed path whose 511th octet is the first one of a character of two octets. -/
def splitPath : Octets := 0x2F :: (List.replicate 509 0x61 ++ [0xC3, 0xA9])

namespace JBuf

theorem append_fits (b : JBuf) (s : Octets) (fits : b.data.length + s.length ≤ b.cap) :
    b.append s = { b with data := b.data ++ s } := by
  rw [append, reserve, if_pos fits]

theorem appendAll_fits (appends : List Octets) (b : JBuf)
    (fits : b.data.length + appends.flatten.length ≤ b.cap) :
    b.appendAll appends = { b with data := b.data ++ appends.flatten } := by
  induction appends generalizing b with
  | nil =>
    rw [flatten_nil, append_nil]
    rfl
  | cons s appends ih =>
    rw [flatten_cons, length_append] at fits
    rw [appendAll, foldl_cons, ← appendAll, append_fits b s (by omega), ih]
    · rw [flatten_cons, ← append_assoc]
    show (b.data ++ s).length + appends.flatten.length ≤ b.cap
    rw [length_append]
    omega

/-- A full buffer that is not granted any more room drops everything. -/
theorem appendAll_full (appends : List Octets) (b : JBuf) (full : b.data.length = b.cap)
    (refused : ∀ n, b.reallocs ≤ n → b.alloc n = false) :
    (b.appendAll appends).data = b.data ∧ (b.appendAll appends).cap = b.cap := by
  induction appends generalizing b with
  | nil => exact ⟨rfl, rfl⟩
  | cons s appends ih =>
    rw [appendAll, foldl_cons, ← appendAll]
    by_cases empty : s = []
    · have same : b.append s = b := by
        rw [append_fits b s (by rw [empty]; exact full.le), empty, append_nil]
      rw [same]
      exact ih b full refused
    have dropped : b.append s = { b with reallocs := b.reallocs + 1 } := by
      have long := length_pos_of_ne_nil empty
      rw [append, reserve, if_neg (by omega), refused _ le_rfl]
      rfl
    rw [dropped]
    exact ih _ full fun n later => refused n (Nat.le_of_succ_le later)

/-- With only the first allocation granted, a buffer takes what its first 256 octets hold. -/
theorem appendAll_refused (c : UInt8) (first rest : List Octets)
    (length : ([c] :: first).flatten.length = 256) :
    let b := JBuf.appendAll ⟨fun n => n = 0, 0, [], 0⟩ ([c] :: (first ++ rest))
    b.data = ([c] :: first).flatten ∧ b.cap = 256 := by
  have start : JBuf.append ⟨fun n => n = 0, 0, [], 0⟩ [c] = ⟨fun n => n = 0, 1, [c], 256⟩ := rfl
  rw [flatten_cons, length_append] at length
  have filled := appendAll_fits first ⟨fun n => n = 0, 1, [c], 256⟩ length.le
  have full := appendAll_full rest ⟨fun n => n = 0, 1, [c] ++ first.flatten, 256⟩
    (by rw [length_append]; exact length)
    fun n later => decide_eq_false (Nat.ne_of_gt later)
  rw [← filled] at full
  simp only [appendAll, foldl_cons, foldl_append, start, flatten_cons] at full filled ⊢
  rw [filled] at full ⊢
  exact full

end JBuf

/-- The first 256 octets of the document of the bare spec. -/
def firstOctets : Octets :=
  ((emitSpec bareHost (bareSpec none) bareImage none (ascii "mediamtx") none).take 155).flatten

/-- Neither with that path nor when the second reallocation fails is the text JSON. -/
theorem document_rejected :
    ((∀ s ∈ givenTexts (bareSpec (some splitPath)) bareImage none (ascii "mediamtx") none,
        Utf8.Valid s) ∧
      ∃ text, buildSpec (fun _ => true) bareHost (bareSpec (some splitPath)) bareImage none
          (ascii "mediamtx") none = some text ∧ Json.parse text = none) ∧
    ∃ text, buildSpec (fun n => n = 0) bareHost (bareSpec none) bareImage none (ascii "mediamtx")
        none = some text ∧ Json.parse text = none := by
  have texts : ∀ s ∈ givenTexts (bareSpec (some splitPath)) bareImage none (ascii "mediamtx") none,
      Utf8.Valid s := by decide +kernel
  have broken : ¬ Utf8.Valid (cgpath (bareSpec (some splitPath)) none (ascii "mediamtx")) := by
    decide +kernel
  refine ⟨⟨texts, _, buildSpec_eq (fun _ => true) (fun _ => rfl) .., ?_⟩,
    firstOctets.take 255, ?_, ?_⟩
  · rw [parse_document_iff bareHost _ _ _ _ _ texts, if_neg broken]
  · -- Only the first allocation is granted, and the text stops where the buffer is full.
    have length : firstOctets.length = 256 := by decide +kernel
    generalize emission : emitSpec bareHost (bareSpec none) bareImage none (ascii "mediamtx") none =
      appends
    obtain ⟨rest, rfl⟩ : ∃ rest, appends = [0x7B] :: rest := ⟨_, emission.symm⟩
    rw [firstOctets, emission, take_succ_cons] at length ⊢
    have refused := JBuf.appendAll_refused 0x7B (rest.take 154) (rest.drop 154) length
    rw [take_append_drop] at refused
    rw [buildSpec, emission, refused.1, refused.2, length]
    rfl
  · have rejected : (Json.parse (firstOctets.take 255)).isNone = true := by decide +kernel
    exact Option.isNone_iff_eq_none.mp rejected

end Strimserver.Oci
