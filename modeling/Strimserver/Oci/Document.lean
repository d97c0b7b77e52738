import Strimserver.Library.Json
import Strimserver.Oci.Spec

/-!
# The document of the builder

What `strim_oci_build_spec` writes is the compact text of a JSON value, `document`, when
no allocation fails. The proof goes section by section: each one appends the text of its
part of the document.
-/

namespace Strimserver.Oci

open Library List

/-! ## The JSON value -/

def literal (s : String) : Json := .str (ascii s)

/-- An array of strings. -/
def strings (items : List Octets) : Json := .arr (items.map .str)

def number (z : ℤ) : Json := .num z 0

def member (key : String) (value : Json) : List (Octets × Json) := [(ascii key, value)]

/-- A member that is left out unless a condition holds. -/
def optional (condition : Bool) (key : String) (value : Json) : List (Octets × Json) :=
  if condition then member key value else []

/-- The user. -/
def userJson (uid gid : ℕ) (gids : List ℕ) : Json :=
  .obj (optional (uid ≠ 0) "uid" (number uid) ++ optional (gid ≠ 0) "gid" (number gid) ++
    optional (gids ≠ []) "additionalGids" (.arr (gids.map fun (gid : ℕ) => number gid)))

def rlimitsJson : Json :=
  .arr [.obj (member "type" (literal "RLIMIT_NOFILE") ++ member "hard" (number 1024) ++
    member "soft" (number 1024))]

/-- The process. -/
def processJson (host : Host) (spec : Spec) (image : ImageConfig) (cdi : Option CdiEdits) : Json :=
  .obj (member "user" (userJson (resolveUser host image).uid (resolveUser host image).gid
      (mergedGids host image cdi)) ++
    member "args" (strings (image.entrypoint ++ argsTail spec image)) ++
    member "env" (strings (mergedEnv spec image cdi)) ++
    member "cwd" (.str (cwd image)) ++
    member "capabilities" (.obj (member "bounding" (strings (mergedCaps spec)) ++
      member "effective" (strings (mergedCaps spec)) ++
      member "permitted" (strings (mergedCaps spec)))) ++
    member "rlimits" rlimitsJson ++
    member "noNewPrivileges" (.bool true))

/-- A mount. -/
def mountJson (destination type source : Octets) (options : List Octets) : Json :=
  .obj (member "destination" (.str destination) ++ member "type" (.str type) ++
    member "source" (.str source) ++ member "options" (strings options))

/-- A mount of the document. -/
structure DocMount where
  (destination type source : Octets)
  options : List Octets

def DocMount.json (m : DocMount) : Json := mountJson m.destination m.type m.source m.options

def DefaultMount.doc (m : DefaultMount) : DocMount := ⟨m.dest, m.type, m.source, m.options⟩

def Mount.doc (m : Mount) : DocMount :=
  ⟨m.destination, ascii "bind", m.source,
    [ascii "rbind", if m.readWrite then ascii "rw" else ascii "ro"]⟩

def CdiMount.doc (m : CdiMount) : DocMount := ⟨m.containerPath, ascii "bind", m.hostPath, m.options⟩

/-- The mounts: defaults, those of the spec, those of the edits. -/
def docMounts (spec : Spec) (cdi : Option CdiEdits) : List DocMount :=
  defaultMounts.map DefaultMount.doc ++ spec.mounts.map Mount.doc ++
    ((cdi.map CdiEdits.mounts).getD []).map CdiMount.doc

def denyJson : Json := .obj (member "allow" (.bool false) ++ member "access" (literal "rwm"))

def allowJson (d : CdiDevice) : Json :=
  .obj (member "allow" (.bool true) ++ member "type" (literal "c") ++
    member "major" (number d.major) ++ member "minor" (number d.minor) ++
    member "access" (literal "rwm"))

def namespaceJson (name : Octets) : Json := .obj (member "type" (.str name))

/-- A device. -/
def deviceJson (d : CdiDevice) : Json :=
  .obj (member "path" (.str d.path) ++ member "type" (.str (d.type.getD (ascii "c"))) ++
    member "major" (number d.major) ++ member "minor" (number d.minor) ++
    optional (d.fileMode ≠ 0) "fileMode" (number d.fileMode) ++
    optional (d.uid ≠ 0) "uid" (number d.uid) ++ optional (d.gid ≠ 0) "gid" (number d.gid))

def docDevices (cdi : Option CdiEdits) : List CdiDevice := (cdi.map CdiEdits.devices).getD []

def namespaces (spec : Spec) : List Octets :=
  ["pid", "ipc", "uts", "mount"].map ascii ++ if spec.hostNetwork then [] else [ascii "network"]

/-- The `linux` part. -/
def linuxJson (spec : Spec) (ns : Option Octets) (containerId : Octets) (cdi : Option CdiEdits) :
    Json :=
  .obj (member "maskedPaths" (strings maskedPaths) ++
    member "readonlyPaths" (strings readonlyPaths) ++
    member "cgroupsPath" (.str (cgpath spec ns containerId)) ++
    member "resources" (.obj (member "devices"
      (.arr (denyJson :: ((docDevices cdi).filter CdiDevice.allowed).map allowJson)))) ++
    member "namespaces" (.arr ((namespaces spec).map namespaceJson)) ++
    optional (docDevices cdi ≠ []) "devices" (.arr ((docDevices cdi).map deviceJson)))

/-- A hook. -/
def hookJson (h : Hook) : Json :=
  .obj (member "path" (.str h.path) ++ optional (h.args ≠ []) "args" (strings h.args) ++
    optional (h.env ≠ []) "env" (strings h.env) ++
    optional (h.timeout ≠ 0) "timeout" (number h.timeout))

/-- The hooks: those of the spec, then those of the edits. -/
def docHooks (spec : Spec) (cdi : Option CdiEdits) : List Hook :=
  spec.hooks ++ (cdi.map CdiEdits.hooks).getD []

/-- The whole document. -/
def document (host : Host) (spec : Spec) (image : ImageConfig) (ns : Option Octets)
    (containerId : Octets) (cdi : Option CdiEdits) : Json :=
  .obj (member "ociVersion" (literal "1.0.2") ++
    member "process" (processJson host spec image cdi) ++
    member "root" (.obj (member "path" (literal "rootfs"))) ++
    member "mounts" (.arr ((docMounts spec cdi).map DocMount.json)) ++
    member "linux" (linuxJson spec ns containerId cdi) ++
    optional (docHooks spec cdi ≠ []) "hooks"
      (.obj (member "createContainer" (.arr ((docHooks spec cdi).map hookJson)))))

/-! ## The text -/

theorem hex4_of_control {n : ℕ} (control : n < 0x20) :
    hex4 n = [0x30, 0x30, hexChar (n / 0x10), hexChar (n % 0x10)] := by
  have zero : n / 0x1000 % 0x10 = 0 ∧ n / 0x100 % 0x10 = 0 ∧ n / 0x10 % 0x10 = n / 0x10 := by omega
  rw [hex4, zero.1, zero.2.1, zero.2.2]
  rfl

theorem quotedOctet_eq (c : UInt8) : quotedOctet c = Json.escaped c := by
  unfold quotedOctet Json.escaped Json.shorthand
  split_ifs
  all_goals first
    | rfl
    | (rename_i control
       have small : c.toNat < 0x20 := control
       rw [hex4_of_control small]
       rfl)

theorem jbQuoted_flatten (s : Octets) : (jbQuoted s).flatten = Json.render (.str s) := by
  have octets : quotedOctet = Json.escaped := funext quotedOctet_eq
  rw [Json.render, Json.quote, jbQuoted, octets, flatten_append, flatten_append, ← flatMap_def]
  rfl

theorem integer_eq (z : ℤ) : integer z = Json.render (number z) := by
  rw [number, Json.render, if_pos rfl, append_nil]

theorem jbI64_flatten (z : ℤ) : (jbI64 z).flatten = Json.render (number z) := by
  rw [← integer_eq]
  exact append_nil _

theorem jbU32_flatten (n : ℕ) : (jbU32 n).flatten = Json.render (number n) := by
  rw [← jbI64_flatten]
  rfl

section

variable {α : Type} {each : α → List Octets} {json : α → Json}

section

variable (text : ∀ x, (each x).flatten = Json.render (json x))

include text

/-- Behind an element each one has a comma. -/
theorem jbItems_flatten_succ (i : ℕ) (xs : List α) :
    (jbItems each (i + 1) xs).flatten =
      (xs.map json).flatMap fun item => 0x2C :: Json.render item := by
  induction xs generalizing i with
  | nil => rfl
  | cons x xs ih =>
    rw [jbItems, if_pos (Nat.succ_ne_zero i), flatten_append, flatten_append, ih, text]
    rfl

theorem jbItems_flatten (xs : List α) :
    (jbItems each 0 xs).flatten = Json.renderItems (xs.map json) := by
  cases xs with
  | nil => rw [map_nil, Json.renderItems]; rfl
  | cons =>
    rw [map_cons, Json.renderItems_cons_eq, ← jbItems_flatten_succ text 0, jbItems,
      if_neg (fun h => h rfl), nil_append, flatten_append, text]

/-- Two loops that share their commas. -/
theorem jbItems_flatten_append (xs ys : List α) :
    (jbItems each 0 xs).flatten ++ (jbItems each xs.length ys).flatten =
      Json.renderItems ((xs ++ ys).map json) := by
  cases xs with
  | nil => exact jbItems_flatten text ys
  | cons =>
    rw [length_cons, jbItems_flatten text, jbItems_flatten_succ text, cons_append, map_cons,
      map_cons, Json.renderItems_cons_eq, Json.renderItems_cons_eq, map_append, flatMap_append,
      append_assoc]

end

end

/-- The members of an object behind the first one. -/
def more (members : List (Octets × Json)) : Octets :=
  members.flatMap fun (key, item) => 0x2C :: (Json.quote key ++ 0x3A :: Json.render item)

theorem more_append (first second : List (Octets × Json)) :
    more (first ++ second) = more first ++ more second := flatMap_append

variable (key : String) (value : Json)

theorem more_member :
    more (member key value) = 0x2C :: (Json.quote (ascii key) ++ 0x3A :: Json.render value) :=
  append_nil _

theorem more_optional (condition : Bool) (key : String) (value : Json) :
    more (optional condition key value) =
      if condition then 0x2C :: (Json.quote (ascii key) ++ 0x3A :: Json.render value) else [] := by
  unfold optional
  split
  · exact more_member key value
  · rfl

theorem render_obj (members : List (Octets × Json)) :
    Json.render (.obj (member key value ++ members)) =
      0x7B :: (Json.quote (ascii key) ++
        0x3A :: (Json.render value ++ (more members ++ [0x7D]))) := by
  rw [member, singleton_append, Json.render, Json.renderMembers_cons_eq]
  simp only [more, append_assoc, cons_append]

theorem render_strings (items : List Octets) :
    Json.render (strings items) = 0x5B :: ((jbItems jbQuoted 0 items).flatten ++ [0x5D]) := by
  rw [strings, Json.render, jbItems_flatten jbQuoted_flatten]

theorem jbStrArray_flatten (items : List Octets) :
    (jbStrArray items).flatten = Json.render (strings items) := by
  rw [render_strings, jbStrArray, flatten_append, flatten_append]
  rfl

theorem render_obj_single : Json.render (.obj (member key value)) =
      0x7B :: (Json.quote (ascii key) ++ 0x3A :: (Json.render value ++ [0x7D])) := by
  rw [← append_nil (member key value), render_obj]
  rfl

theorem render_arr_append {α : Type} {each : α → List Octets} {json : α → Json}
    (text : ∀ x, (each x).flatten = Json.render (json x)) (xs ys : List α) :
    Json.render (.arr ((xs ++ ys).map json)) =
      0x5B :: ((jbItems each 0 xs).flatten ++ ((jbItems each xs.length ys).flatten ++ [0x5D])) := by
  rw [Json.render, ← jbItems_flatten_append text, append_assoc]

theorem render_arr {α : Type} {each : α → List Octets} {json : α → Json}
    (text : ∀ x, (each x).flatten = Json.render (json x)) (xs : List α) :
    Json.render (.arr (xs.map json)) = 0x5B :: ((jbItems each 0 xs).flatten ++ [0x5D]) := by
  rw [Json.render, jbItems_flatten text]

theorem render_arr_flatMap (item : Json) (items : List Json) : Json.render (.arr (item :: items)) =
      0x5B :: (Json.render item ++
        (items.flatMap (fun item => 0x2C :: Json.render item) ++ [0x5D])) := by
  rw [Json.render, Json.renderItems_cons_eq, append_assoc]

theorem render_str (s : Octets) : Json.render (.str s) = Json.quote s := by rw [Json.render]

/-- Elements behind others all have their comma. -/
theorem renderItems_append (first second : List Json) (some : first ≠ []) :
    Json.renderItems (first ++ second) =
      Json.renderItems first ++ second.flatMap fun item => 0x2C :: Json.render item := by
  cases first with
  | nil => exact absurd rfl some
  | cons =>
    rw [cons_append, Json.renderItems_cons_eq, Json.renderItems_cons_eq, flatMap_append,
      append_assoc]

theorem flatMap_flatten {α : Type} {each : α → List Octets} {json : α → Json}
    (text : ∀ x, (each x).flatten = 0x2C :: Json.render (json x)) (xs : List α) :
    (xs.flatMap each).flatten = (xs.map json).flatMap fun item => 0x2C :: Json.render item := by
  induction xs with
  | nil => rfl
  | cons x xs ih =>
    rw [flatMap_cons, flatten_append, ih, text]
    rfl

/-! ## The text of the sections -/

theorem emitHookObject_flatten (h : Hook) :
    (emitHookObject h).flatten = Json.render (hookJson h) := by
  simp only [hookJson, emitHookObject, append_assoc, render_obj, more_append, more_optional,
    flatten_append, jbQuoted_flatten, jbStrArray_flatten, jbI64_flatten, apply_ite List.flatten,
    flatten_nil, decide_eq_true_eq]
  rfl

variable (spec : Spec) (cdi : Option CdiEdits)

theorem emitHooks_flatten : (emitHooks spec cdi).flatten =
      more (optional (docHooks spec cdi ≠ []) "hooks"
        (.obj (member "createContainer" (.arr ((docHooks spec cdi).map hookJson))))) := by
  rw [more_optional, render_obj_single, docHooks, render_arr_append emitHookObject_flatten]
  unfold emitHooks
  by_cases none : spec.hooks = [] ∧ (cdi.map CdiEdits.hooks).getD [] = []
  · rw [if_pos none, none.1, none.2]
    rfl
  have some : spec.hooks ++ (cdi.map CdiEdits.hooks).getD [] ≠ [] := by
    rwa [ne_eq, append_eq_nil_iff]
  rw [if_neg none, if_pos (decide_eq_true some)]
  simp only [flatten_append, append_assoc, cons_append]
  rfl

theorem emitUser_flatten (uid gid : ℕ) (gids : List ℕ) : (emitUser uid gid gids).flatten =
      ascii "\"process\":\x7b\"user\":" ++ Json.render (userJson uid gid gids) := by
  have list := render_arr jbU32_flatten gids
  -- Which members there are decides where the commas stand.
  by_cases root : uid = 0 <;> by_cases rootGroup : gid = 0 <;> by_cases none : gids = []
  all_goals
    simp only [emitUser, userJson, optional, root, rootGroup, none, ne_eq, not_true_eq_false,
      not_false_eq_true, decide_true, decide_false, if_true, if_false, Bool.false_eq_true,
      nil_append, append_nil, or_self, or_true, true_or, append_assoc, cons_append, flatten_append,
      render_obj, render_obj_single, more_append, more_member, jbU32_flatten, list]
    rfl

theorem emitDefaultMount_flatten (m : DefaultMount) :
    (emitDefaultMount m).flatten = Json.render m.doc.json := by
  simp only [emitDefaultMount, DocMount.json, mountJson, append_assoc, cons_append, render_obj,
    more_append, more_member, render_strings, flatten_append, jbQuoted_flatten]
  rfl

theorem emitMount_flatten (m : Mount) : (emitMount m).flatten = 0x2C :: Json.render m.doc.json := by
  simp only [emitMount, DocMount.json, mountJson, append_assoc, cons_append, render_obj,
    more_append, more_member, render_strings, flatten_append, jbQuoted_flatten, render_str]
  obtain ⟨source, destination, readWrite⟩ := m
  cases readWrite <;> rfl

theorem emitCdiMount_flatten (m : CdiMount) :
    (emitCdiMount m).flatten = 0x2C :: Json.render m.doc.json := by
  simp only [emitCdiMount, DocMount.json, mountJson, append_assoc, cons_append, render_obj,
    more_append, more_member, render_strings, flatten_append, jbQuoted_flatten, render_str]
  rfl

theorem emitAllow_flatten (d : CdiDevice) :
    (emitAllow d).flatten = if d.allowed then 0x2C :: Json.render (allowJson d) else [] := by
  simp only [emitAllow, allowJson, append_assoc, cons_append, render_obj, more_append, more_member,
    flatten_append, jbI64_flatten, apply_ite List.flatten, flatten_nil]
  rfl

theorem emitNamespace_flatten (name : Octets) :
    (emitNamespace name).flatten = Json.render (namespaceJson name) := by
  simp only [emitNamespace, namespaceJson, render_obj_single, flatten_append, jbQuoted_flatten,
    append_assoc]
  rfl

theorem emitDevice_flatten (d : CdiDevice) :
    (emitDevice d).flatten = Json.render (deviceJson d) := by
  simp only [emitDevice, deviceJson, append_assoc, cons_append, render_obj, more_append,
    more_member, more_optional, flatten_append, jbQuoted_flatten, jbI64_flatten, jbU32_flatten,
    apply_ite List.flatten, flatten_nil, decide_eq_true_eq]
  rfl

theorem rlimits_flatten :
    (jbRaw
      ",\"rlimits\":[\x7b\"type\":\"RLIMIT_NOFILE\",\"hard\":1024,\"soft\":1024\x7d]").flatten =
      0x2C :: (Json.quote (ascii "rlimits") ++ 0x3A :: Json.render rlimitsJson) := by
  decide

theorem capabilities_flatten (caps : List Octets) :
    (jbRaw ",\"capabilities\":\x7b" ++ jbRaw "\"bounding\":" ++ jbStrArray caps ++
        jbRaw ",\"effective\":" ++ jbStrArray caps ++ jbRaw ",\"permitted\":" ++ jbStrArray caps ++
        jbCh 0x7D).flatten =
      0x2C :: (Json.quote (ascii "capabilities") ++ 0x3A ::
        Json.render (.obj (member "bounding" (strings caps) ++ member "effective" (strings caps) ++
          member "permitted" (strings caps)))) := by
  simp only [append_assoc, cons_append, render_obj, more_append, more_member, flatten_append,
    jbStrArray_flatten]
  rfl

theorem emitProcess_flatten (host : Host) (spec : Spec) (image : ImageConfig)
    (cdi : Option CdiEdits) :
    (emitProcess host spec image cdi).flatten =
      Json.quote (ascii "process") ++ 0x3A :: Json.render (processJson host spec image cdi) := by
  have args := render_arr_append jbQuoted_flatten image.entrypoint (argsTail spec image)
  have caps := capabilities_flatten (mergedCaps spec)
  simp only [append_assoc, cons_append, flatten_append, render_obj, more_append,
    more_member] at caps
  simp only [emitProcess, processJson, emitUser_flatten, append_assoc, cons_append, render_obj,
    more_append, more_member, flatten_append, jbStrArray_flatten, jbQuoted_flatten, rlimits_flatten,
    strings, args]
  rfl

theorem emitMounts_flatten : (emitMounts spec cdi).flatten = Json.quote (ascii "mounts") ++
        0x3A :: Json.render (.arr ((docMounts spec cdi).map DocMount.json)) := by
  have defaults : (jbItems emitDefaultMount 0 defaultMounts).flatten =
      Json.renderItems (defaultMounts.map fun m => m.doc.json) :=
    jbItems_flatten emitDefaultMount_flatten defaultMounts
  have some : defaultMounts.map (fun m : DefaultMount => m.doc.json) ≠ [] := cons_ne_nil _ _
  rw [docMounts, Json.render, map_append, map_append, map_map, map_map, map_map, append_assoc]
  erw [renderItems_append _ _ some]
  simp only [emitMounts, flatten_append, defaults, flatMap_flatten emitMount_flatten,
    flatMap_flatten emitCdiMount_flatten, flatMap_append, append_assoc]
  rfl

theorem allow_flatten (devices : List CdiDevice) : (devices.flatMap emitAllow).flatten =
      ((devices.filter CdiDevice.allowed).map allowJson).flatMap fun item =>
        0x2C :: Json.render item := by
  induction devices with
  | nil => rfl
  | cons d devices ih =>
    rw [flatMap_cons, flatten_append, ih, emitAllow_flatten, filter_cons]
    split
    · rw [map_cons, flatMap_cons]
    · rfl

theorem deny_flatten :
    (jbRaw ",\"resources\":\x7b\"devices\":[\x7b\"allow\":false,\"access\":\"rwm\"\x7d").flatten =
      0x2C :: (Json.quote (ascii "resources") ++ 0x3A :: 0x7B :: (Json.quote (ascii "devices") ++
        0x3A :: 0x5B :: Json.render denyJson)) := by
  decide

theorem render_namespaces : Json.render (.arr ((namespaces spec).map namespaceJson)) =
      0x5B :: ((jbItems emitNamespace 0 (["pid", "ipc", "uts", "mount"].map ascii)).flatten ++
        ((if spec.hostNetwork then []
          else (jbCh 0x2C ++ jbRaw "\x7b\"type\":\"network\"\x7d").flatten) ++
          [0x5D])) := by
  have base : (["pid", "ipc", "uts", "mount"].map ascii).map namespaceJson ≠ [] := cons_ne_nil _ _
  rw [Json.render, namespaces, map_append, renderItems_append _ _ base,
    jbItems_flatten emitNamespace_flatten, append_assoc]
  cases spec.hostNetwork <;> rfl

theorem emitLinux_flatten (ns : Option Octets) (containerId : Octets) (cdi : Option CdiEdits) :
    (emitLinux spec ns containerId cdi).flatten =
      Json.quote (ascii "linux") ++ 0x3A :: Json.render (linuxJson spec ns containerId cdi) := by
  have devices := render_arr emitDevice_flatten (docDevices cdi)
  simp only [linuxJson, append_assoc, cons_append, render_obj, more_append, more_member,
    more_optional, devices, render_obj_single, render_arr_flatMap, ← allow_flatten,
    render_namespaces, decide_eq_true_eq]
  simp only [emitLinux, append_assoc, flatten_append, cons_append, jbStrArray_flatten,
    jbQuoted_flatten, deny_flatten, apply_ite List.flatten, flatten_nil]
  rfl

theorem emitSpec_flatten (host : Host) (spec : Spec) (image : ImageConfig) (ns : Option Octets)
    (containerId : Octets) (cdi : Option CdiEdits) :
    (emitSpec host spec image ns containerId cdi).flatten =
      Json.render (document host spec image ns containerId cdi) ++ [0x00] := by
  simp only [emitSpec, document, append_assoc, cons_append, flatten_append, emitProcess_flatten,
    emitMounts_flatten, emitLinux_flatten, emitHooks_flatten, render_obj, more_append, more_member]
  rfl

/-! ## The buffer -/

namespace JBuf

theorem grow_ne_zero (need fuel ncap : ℕ) (some : ncap ≠ 0) : grow need fuel ncap ≠ 0 := by
  induction fuel generalizing ncap with
  | zero => exact some
  | succ fuel ih =>
    rw [grow]
    split
    · exact ih (2 * ncap) (by omega)
    · exact some

/-- A buffer whose reallocations all succeed takes every append. -/
theorem append_sound (b : JBuf) (s : Octets) (sound : ∀ n, b.alloc n = true) :
    (b.append s).alloc = b.alloc ∧ (b.append s).data = b.data ++ s ∧
      (s ≠ [] ∨ b.cap ≠ 0 → (b.append s).cap ≠ 0) := by
  unfold append reserve
  by_cases room : b.data.length + s.length ≤ b.cap
  · simp only [if_pos room]
    refine ⟨trivial, trivial, fun some => ?_⟩
    rcases some with text | cap
    · have := length_pos_of_ne_nil text
      omega
    · exact cap
  · simp only [if_neg room, sound, if_true]
    refine ⟨trivial, trivial, fun _ => grow_ne_zero _ _ _ ?_⟩
    split <;> omega

theorem appendAll_sound (appends : List Octets) (b : JBuf) (sound : ∀ n, b.alloc n = true) :
    (b.appendAll appends).data = b.data ++ appends.flatten ∧
      (appends.flatten ≠ [] ∨ b.cap ≠ 0 → (b.appendAll appends).cap ≠ 0) := by
  induction appends generalizing b with
  | nil =>
    rw [flatten_nil, append_nil]
    exact ⟨rfl, fun some => some.resolve_left fun absurd => absurd rfl⟩
  | cons s appends ih =>
    obtain ⟨alloc, data, cap⟩ := append_sound b s sound
    obtain ⟨dataAll, capAll⟩ := ih (b.append s) (alloc ▸ sound)
    refine ⟨?_, fun some => capAll ?_⟩
    · rw [appendAll, foldl_cons, ← appendAll, dataAll, data, flatten_cons, append_assoc]
    by_cases empty : s = []
    · subst empty
      exact some.imp id fun room => cap (Or.inr room)
    · exact Or.inr (cap (Or.inl empty))

end JBuf

/-- **When no allocation fails, the builder returns the text of the document.** -/
theorem buildSpec_eq (alloc : ℕ → Bool) (sound : ∀ n, alloc n = true) (host : Host) (spec : Spec)
    (image : ImageConfig) (ns : Option Octets) (containerId : Octets) (cdi : Option CdiEdits) :
    buildSpec alloc host spec image ns containerId cdi =
      some (Json.render (document host spec image ns containerId cdi)) := by
  obtain ⟨data, cap⟩ := JBuf.appendAll_sound (emitSpec host spec image ns containerId cdi)
    ⟨alloc, 0, [], 0⟩ sound
  rw [emitSpec_flatten] at data cap
  have text : Json.render (document host spec image ns containerId cdi) ++ [0x00] ≠ [] :=
    append_ne_nil_of_right_ne_nil _ (cons_ne_nil _ _)
  rw [buildSpec, if_neg (cap (Or.inl text)), data, nil_append, length_append, length_singleton,
    Nat.add_sub_cancel, take_left]

end Strimserver.Oci
