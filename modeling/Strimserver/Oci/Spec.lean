import Strimserver.Library.Octets

/-!
# The OCI spec builder

`oci_spec.c`: the runtime spec of a container, written as JSON text by appends to a
growing buffer. A section of the builder is the list of its appends, in their order.

An append that needs more room reallocates the buffer, and is dropped when that fails;
`alloc` says which reallocations succeed. A string is the list of its octets before the
terminator, and an array with its count is a list. The user of the image is looked up in
`/etc/passwd` and `/etc/group`, given as the fields of their lines.

`strim_process.cwd` is not read by the builder and is left out.
-/

namespace Strimserver.Oci

/-! ## What the builder is given -/

/-- A mount that the caller gives. -/
structure Mount where
  source : Octets
  destination : Octets
  readWrite : Bool

/-- `strim_hook` and `strim_oci_cdi_hook`. -/
structure Hook where
  path : Octets
  args : List Octets
  env : List Octets
  timeout : ℤ

/-- The process of a spec. -/
structure Process where
  (args env capabilities : List Octets)

/-- What the caller gives. -/
structure Spec where
  process : Process
  mounts : List Mount
  hostNetwork : Bool
  cgroupsPath : Option Octets
  hooks : List Hook

/-- `strim_oci_image_config`. -/
structure ImageConfig where
  (env entrypoint cmd : List Octets)
  workingDir : Option Octets
  user : Option Octets

/-- `strim_oci_cdi_mount`. -/
structure CdiMount where
  hostPath : Octets
  containerPath : Octets
  options : List Octets

/-- `strim_oci_cdi_device`. -/
structure CdiDevice where
  path : Octets
  type : Option Octets
  major : ℤ
  minor : ℤ
  (fileMode uid gid : ℕ)

/-- `strim_oci_cdi_edits`. -/
structure CdiEdits where
  env : List Octets
  mounts : List CdiMount
  devices : List CdiDevice
  hooks : List Hook
  additionalGids : List ℕ

/-- A device node; without a type it is a character device. -/
def CdiDevice.typed (d : CdiDevice) : CdiDevice := { d with type := some (d.type.getD (ascii "c")) }

/-- The edits that change nothing. -/
def noEdits : CdiEdits := ⟨[], [], [], [], []⟩

/-- The files of the host: the fields of each line, if the file can be opened. -/
structure Host where
  passwd : Option (List (List Octets))
  group : Option (List (List Octets))

/-! ## The buffer -/

/-- `struct jbuf`. -/
structure JBuf where
  /-- Which reallocations succeed. -/
  alloc : ℕ → Bool
  /-- How many there were. -/
  reallocs : ℕ
  data : Octets
  cap : ℕ

/-- Four hexadecimal digits, `%04x`. -/
def hex4 (n : ℕ) : Octets :=
  [hexChar (n / 0x1000 % 0x10), hexChar (n / 0x100 % 0x10), hexChar (n / 0x10 % 0x10),
    hexChar (n % 0x10)]

namespace JBuf

/-- `while (ncap < need) ncap *= 2`. -/
def grow (need : ℕ) : ℕ → ℕ → ℕ
  | 0, ncap => ncap
  | fuel + 1, ncap => if ncap < need then grow need fuel (2 * ncap) else ncap

/-- `jb_reserve`. -/
def reserve (b : JBuf) (extra : ℕ) : Bool × JBuf :=
  let need := b.data.length + extra
  if need ≤ b.cap then (true, b)
  else if b.alloc b.reallocs then
    (true, { b with
      reallocs := b.reallocs + 1
      cap := grow need need (if b.cap = 0 then 256 else b.cap) })
  else (false, { b with reallocs := b.reallocs + 1 })

/-- An append to the buffer. -/
def append (b : JBuf) (s : Octets) : JBuf :=
  match b.reserve s.length with
  | (true, b) => { b with data := b.data ++ s }
  | (false, b) => b

def appendAll (b : JBuf) (appends : List Octets) : JBuf := appends.foldl append b

end JBuf

/-- `jb_raw`. -/
def jbRaw (s : String) : List Octets := [ascii s]

/-- `jb_ch`. -/
def jbCh (c : UInt8) : List Octets := [[c]]

/-- What `jb_quoted` appends for an octet. -/
def quotedOctet (c : UInt8) : Octets :=
  if c = 0x22 then ascii "\\\""
  else if c = 0x5C then ascii "\\\\"
  else if c = 0x08 then ascii "\\b"
  else if c = 0x0C then ascii "\\f"
  else if c = 0x0A then ascii "\\n"
  else if c = 0x0D then ascii "\\r"
  else if c = 0x09 then ascii "\\t"
  else if c < 0x20 then ascii "\\u" ++ hex4 c.toNat
  else [c]

/-- `jb_quoted`. -/
def jbQuoted (s : Octets) : List Octets := jbCh 0x22 ++ s.map quotedOctet ++ jbCh 0x22

/-- `jb_u32`. -/
def jbU32 (v : ℕ) : List Octets := [decimal v]

/-- `jb_i64`. -/
def jbI64 (v : ℤ) : List Octets := [integer v]

/-- A loop with a comma in front of each element but the one with index zero. -/
def jbItems {α : Type} (each : α → List Octets) : ℕ → List α → List Octets
  | _, [] => []
  | i, x :: xs => (if i ≠ 0 then jbCh 0x2C else []) ++ each x ++ jbItems each (i + 1) xs

/-- `jb_str_array`. -/
def jbStrArray (items : List Octets) : List Octets :=
  jbCh 0x5B ++ jbItems jbQuoted 0 items ++ jbCh 0x5D

/-! ## Defaults -/

/-- `DEFAULT_CAPS`. -/
def defaultCaps : List Octets :=
  ["CAP_CHOWN", "CAP_DAC_OVERRIDE", "CAP_FSETID", "CAP_FOWNER", "CAP_MKNOD", "CAP_NET_RAW",
    "CAP_SETGID", "CAP_SETUID", "CAP_SETFCAP", "CAP_SETPCAP", "CAP_NET_BIND_SERVICE",
    "CAP_SYS_CHROOT", "CAP_KILL", "CAP_AUDIT_WRITE"].map ascii

/-- An entry of `DEFAULT_MOUNTS`. -/
structure DefaultMount where
  (dest type source : Octets)
  options : List Octets

def DefaultMount.ofStrings (dest type source : String) (options : List String) : DefaultMount :=
  ⟨ascii dest, ascii type, ascii source, options.map ascii⟩

/-- `DEFAULT_MOUNTS`. -/
def defaultMounts : List DefaultMount :=
  [.ofStrings "/proc" "proc" "proc" ["nosuid", "noexec", "nodev"],
    .ofStrings "/dev" "tmpfs" "tmpfs" ["nosuid", "strictatime", "mode=755", "size=65536k"],
    .ofStrings "/dev/pts" "devpts" "devpts"
      ["nosuid", "noexec", "newinstance", "ptmxmode=0666", "mode=0620", "gid=5"],
    .ofStrings "/dev/shm" "tmpfs" "shm" ["nosuid", "noexec", "nodev", "mode=1777", "size=65536k"],
    .ofStrings "/dev/mqueue" "mqueue" "mqueue" ["nosuid", "noexec", "nodev"],
    .ofStrings "/sys" "sysfs" "sysfs" ["nosuid", "noexec", "nodev", "ro"],
    .ofStrings "/run" "tmpfs" "tmpfs" ["nosuid", "strictatime", "mode=755", "size=65536k"]]

/-- `MASKED_PATHS`. -/
def maskedPaths : List Octets :=
  ["/proc/acpi", "/proc/asound", "/proc/kcore", "/proc/keys", "/proc/latency_stats",
    "/proc/timer_list", "/proc/timer_stats", "/proc/sched_debug", "/sys/firmware",
    "/sys/devices/virtual/powercap", "/proc/scsi"].map ascii

/-- `READONLY_PATHS`. -/
def readonlyPaths : List Octets :=
  ["/proc/bus", "/proc/fs", "/proc/irq", "/proc/sys", "/proc/sysrq-trigger"].map ascii

/-- `strim_default_unix_env`. -/
def defaultUnixEnv : List Octets :=
  [ascii "PATH=/usr/local/sbin:/usr/local/bin:/usr/sbin:/usr/bin:/sbin:/bin"]

/-- `STRIM_SPEC_MAX_ENV`. -/
def specMaxEnv : ℕ := 64

/-! ## The user -/

/-- `struct resolved_user`. -/
structure ResolvedUser where
  uid : ℕ
  gid : ℕ
  gids : List ℕ

/-- `ULONG_MAX`. -/
def ulongMax : ℕ := 2 ^ 64 - 1

/-- `strtoul` in base ten, when it reads the whole string, cut to 32 bits. -/
def strtoul (s : Octets) : Option ℕ :=
  let s := s.dropWhile isSpace
  let negative : Bool := s.head? = some 0x2D
  let digits := if negative ∨ s.head? = some 0x2B then s.tail else s
  let value := digitsValue digits
  if digits = [] ∨ digits.all isDigit = false then none
  else if ulongMax < value then some (ulongMax % 2 ^ 32)
  else if negative then some ((2 ^ 64 - value) % 2 ^ 32)
  else some (value % 2 ^ 32)

/-- `parse_user_spec`: the name, the group and the number that the name is. -/
def parseUserSpec (user : Octets) : Option (Octets × Octets × Option ℕ) :=
  let name := user.takeWhile (· ≠ 0x3A)
  let group := (user.dropWhile (· ≠ 0x3A)).tail
  if user = [] then none
  else if name = [] ∨ 128 ≤ name.length ∨ 128 ≤ group.length then none
  else some (name, group, if name.head?.any isDigit then strtoul name else none)

/-- `passwd_lookup`. -/
def passwdLookup (host : Host) (name : Octets) : Option (ℕ × ℕ) :=
  host.passwd.bind fun lines =>
    (lines.find? fun fields => 4 ≤ fields.length ∧ fields.head? = some name).bind fun fields =>
      (fields[2]?.bind strtoul).bind fun uid => (fields[3]?.bind strtoul).map fun gid => (uid, gid)

/-- `group_lookup`. -/
def groupLookup (host : Host) (name : Octets) : Option ℕ :=
  host.group.bind fun lines =>
    (lines.find? fun fields => 3 ≤ fields.length ∧ fields.head? = some name).bind fun fields =>
      fields[2]?.bind strtoul

/-- The tokens of a list of members, without the end of the line. -/
def members (field : Octets) : List Octets :=
  ((field.splitOn 0x2C).filter (· ≠ [])).map fun m =>
    (m.reverse.dropWhile fun c => c = 0x0A ∨ c = 0x0D).reverse

/-- The loop of `group_memberships`. -/
def membershipLoop (username : Octets) : List (List Octets) → List ℕ → List ℕ
  | [], gids => gids
  | fields :: lines, gids =>
    if gids.length < 16 then
      match fields[3]? with
      | some field =>
        if username ∈ members field then
          membershipLoop username lines (gids ++ (fields[2]?.bind strtoul).toList)
        else membershipLoop username lines gids
      | none => membershipLoop username lines gids
    else gids

/-- `group_memberships`. -/
def groupMemberships (host : Host) (username : Octets) (primary : ℕ) : List ℕ :=
  match host.group with
  | none => []
  | some lines => membershipLoop username lines [primary]

def ResolvedUser.root : ResolvedUser := ⟨0, 0, [0]⟩

/-- `resolve_user`. -/
def resolveUser (host : Host) (image : ImageConfig) : ResolvedUser :=
  match image.user.bind parseUserSpec with
  | none => .root
  | some (name, group, numeric) =>
    let named := if group = [] then none else groupLookup host group
    let (uid, gid) : ℕ × ℕ :=
      match numeric with
      | some uid => (uid, if group = [] then 0 else ((strtoul group).or named).getD 0)
      | none =>
        match passwdLookup host name with
        | some (uid, gid) => (uid, named.getD gid)
        | none => (0, named.getD 0)
    let username := if numeric.isSome then decimal uid else name
    let gids := groupMemberships host username gid
    ⟨uid, gid, if gids = [] then [gid] else gids⟩

/-! ## Environment, groups and capabilities -/

/-- A loop that collects what it keeps while there is room. -/
def collect {α : Type} (cap : ℕ) (keep : List α → α → Bool) : List α → List α → List α
  | [], acc => acc
  | x :: xs, acc =>
    if acc.length < cap then collect cap keep xs (if keep acc x then acc ++ [x] else acc) else acc

/-- `env_key_len`, as the key itself. -/
def envKey (entry : Octets) : Octets := entry.takeWhile (· ≠ 0x3D)

/-- `env_has_key`. -/
def envHasKey (env : List Octets) (entry : Octets) : Bool :=
  env.any fun other => envKey other = envKey entry

/-- The environment of the spec, of the image, or the default one. -/
def baseEnv (spec : Spec) (image : ImageConfig) : List Octets :=
  if spec.process.env ≠ [] then spec.process.env
  else if image.env ≠ [] then image.env
  else defaultUnixEnv

def mergedEnv (spec : Spec) (image : ImageConfig) (cdi : Option CdiEdits) : List Octets :=
  let env := baseEnv spec image
  let all := collect specMaxEnv (fun _ _ => true) env []
  match cdi with
  | none => all
  | some edits => collect specMaxEnv (fun _ entry => !envHasKey env entry) edits.env all

/-- The groups of the user and of the edits. -/
def mergedGids (host : Host) (image : ImageConfig) (cdi : Option CdiEdits) : List ℕ :=
  let gids := (resolveUser host image).gids
  match cdi with
  | none => gids
  | some edits => collect 16 (fun _ _ => true) edits.additionalGids gids

/-- The capabilities, without duplicates. -/
def mergedCaps (spec : Spec) : List Octets :=
  collect 64 (fun caps cap => !caps.contains cap) spec.process.capabilities
    (collect 64 (fun _ _ => true) defaultCaps [])

/-- The arguments behind the entry point. -/
def argsTail (spec : Spec) (image : ImageConfig) : List Octets :=
  if spec.process.args ≠ [] then spec.process.args else image.cmd

def cwd (image : ImageConfig) : Octets :=
  match image.workingDir with
  | none => ascii "/"
  | some dir => if dir = [] then ascii "/" else dir

/-- The path of the control group, before it is cut. -/
def cgroupsPath (spec : Spec) (ns : Option Octets) (containerId : Octets) : Octets :=
  match spec.cgroupsPath with
  | some (c :: path) => c :: path
  | _ => ascii "/" ++ ns.getD (ascii "default") ++ ascii "/" ++ containerId

/-- `cgpath`: `snprintf` into 512 octets. -/
def cgpath (spec : Spec) (ns : Option Octets) (containerId : Octets) : Octets :=
  (cgroupsPath spec ns containerId).take 511

/-! ## The sections -/

/-- The user of `emit_process`. -/
def emitUser (uid gid : ℕ) (gids : List ℕ) : List Octets :=
  jbRaw "\"process\":\x7b\"user\":\x7b" ++
  (if uid ≠ 0 then jbRaw "\"uid\":" ++ jbU32 uid else []) ++
  (if gid ≠ 0 then (if uid ≠ 0 then jbCh 0x2C else []) ++ jbRaw "\"gid\":" ++ jbU32 gid else []) ++
  (if gids ≠ [] then
    (if uid ≠ 0 ∨ gid ≠ 0 then jbCh 0x2C else []) ++ jbRaw "\"additionalGids\":[" ++
      jbItems jbU32 0 gids ++ jbCh 0x5D
  else []) ++
  jbCh 0x7D

/-- `emit_process`. -/
def emitProcess (host : Host) (spec : Spec) (image : ImageConfig) (cdi : Option CdiEdits) :
    List Octets :=
  emitUser (resolveUser host image).uid (resolveUser host image).gid (mergedGids host image cdi) ++
  jbRaw ",\"args\":[" ++ jbItems jbQuoted 0 image.entrypoint ++
  jbItems jbQuoted image.entrypoint.length (argsTail spec image) ++ jbCh 0x5D ++
  jbRaw ",\"env\":" ++ jbStrArray (mergedEnv spec image cdi) ++
  jbRaw ",\"cwd\":" ++ jbQuoted (cwd image) ++
  jbRaw ",\"capabilities\":\x7b" ++
  jbRaw "\"bounding\":" ++ jbStrArray (mergedCaps spec) ++
  jbRaw ",\"effective\":" ++ jbStrArray (mergedCaps spec) ++
  jbRaw ",\"permitted\":" ++ jbStrArray (mergedCaps spec) ++
  jbCh 0x7D ++
  jbRaw ",\"rlimits\":[\x7b\"type\":\"RLIMIT_NOFILE\",\"hard\":1024,\"soft\":1024\x7d]" ++
  jbRaw ",\"noNewPrivileges\":true\x7d"

def emitDefaultMount (m : DefaultMount) : List Octets :=
  jbRaw "\x7b\"destination\":" ++ jbQuoted m.dest ++
  jbRaw ",\"type\":" ++ jbQuoted m.type ++
  jbRaw ",\"source\":" ++ jbQuoted m.source ++
  jbRaw ",\"options\":[" ++ jbItems jbQuoted 0 m.options ++ jbCh 0x5D ++ jbCh 0x7D

def emitMount (m : Mount) : List Octets :=
  jbCh 0x2C ++ jbRaw "\x7b\"destination\":" ++ jbQuoted m.destination ++
  jbRaw ",\"type\":\"bind\",\"source\":" ++ jbQuoted m.source ++
  jbRaw ",\"options\":[\"rbind\",\"" ++ (if m.readWrite then jbRaw "rw" else jbRaw "ro") ++
  jbRaw "\"]\x7d"

def emitCdiMount (m : CdiMount) : List Octets :=
  jbCh 0x2C ++ jbRaw "\x7b\"destination\":" ++ jbQuoted m.containerPath ++
  jbRaw ",\"type\":\"bind\",\"source\":" ++ jbQuoted m.hostPath ++
  jbRaw ",\"options\":[" ++ jbItems jbQuoted 0 m.options ++ jbCh 0x5D ++ jbCh 0x7D

/-- `emit_mounts`. -/
def emitMounts (spec : Spec) (cdi : Option CdiEdits) : List Octets :=
  jbRaw "\"mounts\":[" ++ jbItems emitDefaultMount 0 defaultMounts ++
  spec.mounts.flatMap emitMount ++ ((cdi.map CdiEdits.mounts).getD []).flatMap emitCdiMount ++
  jbCh 0x5D

/-- The nodes that get an allow rule. -/
def CdiDevice.allowed (d : CdiDevice) : Bool :=
  !(d.major < 0 || d.minor < 0) && d.type.all (· = ascii "c")

/-- The allow rule of a node, if it gets one. -/
def emitAllow (d : CdiDevice) : List Octets :=
  if d.allowed then
    jbRaw ",\x7b\"allow\":true,\"type\":\"c\",\"major\":" ++ jbI64 d.major ++
    jbRaw ",\"minor\":" ++ jbI64 d.minor ++ jbRaw ",\"access\":\"rwm\"\x7d"
  else []

def emitNamespace (name : Octets) : List Octets :=
  jbRaw "\x7b\"type\":" ++ jbQuoted name ++ jbCh 0x7D

def emitDevice (d : CdiDevice) : List Octets :=
  jbRaw "\x7b\"path\":" ++ jbQuoted d.path ++
  jbRaw ",\"type\":" ++ jbQuoted (d.type.getD (ascii "c")) ++
  jbRaw ",\"major\":" ++ jbI64 d.major ++
  jbRaw ",\"minor\":" ++ jbI64 d.minor ++
  (if d.fileMode ≠ 0 then jbRaw ",\"fileMode\":" ++ jbU32 d.fileMode else []) ++
  (if d.uid ≠ 0 then jbRaw ",\"uid\":" ++ jbU32 d.uid else []) ++
  (if d.gid ≠ 0 then jbRaw ",\"gid\":" ++ jbU32 d.gid else []) ++
  jbCh 0x7D

/-- `emit_linux`. -/
def emitLinux (spec : Spec) (ns : Option Octets) (containerId : Octets) (cdi : Option CdiEdits) :
    List Octets :=
  let devices := (cdi.map CdiEdits.devices).getD []
  jbRaw "\"linux\":\x7b" ++
  jbRaw "\"maskedPaths\":" ++ jbStrArray maskedPaths ++
  jbRaw ",\"readonlyPaths\":" ++ jbStrArray readonlyPaths ++
  jbRaw ",\"cgroupsPath\":" ++ jbQuoted (cgpath spec ns containerId) ++
  jbRaw ",\"resources\":\x7b\"devices\":[\x7b\"allow\":false,\"access\":\"rwm\"\x7d" ++
  devices.flatMap emitAllow ++ jbRaw "]\x7d" ++
  jbRaw ",\"namespaces\":[" ++
  jbItems emitNamespace 0 (["pid", "ipc", "uts", "mount"].map ascii) ++
  (if spec.hostNetwork then [] else jbCh 0x2C ++ jbRaw "\x7b\"type\":\"network\"\x7d") ++
  jbCh 0x5D ++
  (if devices ≠ [] then
    jbRaw ",\"devices\":[" ++ jbItems emitDevice 0 devices ++ jbCh 0x5D else []) ++
  jbCh 0x7D

/-- `emit_hook_object`. -/
def emitHookObject (h : Hook) : List Octets :=
  jbRaw "\x7b\"path\":" ++ jbQuoted h.path ++
  (if h.args ≠ [] then jbRaw ",\"args\":" ++ jbStrArray h.args else []) ++
  (if h.env ≠ [] then jbRaw ",\"env\":" ++ jbStrArray h.env else []) ++
  (if h.timeout ≠ 0 then jbRaw ",\"timeout\":" ++ jbI64 h.timeout else []) ++
  jbCh 0x7D

/-- `emit_hooks`. -/
def emitHooks (spec : Spec) (cdi : Option CdiEdits) : List Octets :=
  let hooks := (cdi.map CdiEdits.hooks).getD []
  if spec.hooks = [] ∧ hooks = [] then []
  else
    jbRaw ",\"hooks\":\x7b" ++ jbRaw "\"createContainer\":[" ++
    jbItems emitHookObject 0 spec.hooks ++ jbItems emitHookObject spec.hooks.length hooks ++
    jbRaw "]\x7d"

/-- The appends of `strim_oci_build_spec`. -/
def emitSpec (host : Host) (spec : Spec) (image : ImageConfig) (ns : Option Octets)
    (containerId : Octets) (cdi : Option CdiEdits) : List Octets :=
  jbCh 0x7B ++ jbRaw "\"ociVersion\":\"1.0.2\"," ++
  emitProcess host spec image cdi ++ jbCh 0x2C ++
  jbRaw "\"root\":\x7b\"path\":\"rootfs\"\x7d," ++
  emitMounts spec cdi ++ jbCh 0x2C ++
  emitLinux spec ns containerId cdi ++ emitHooks spec cdi ++
  jbCh 0x7D ++ jbCh 0x00

/-- `strim_oci_build_spec`: the text, or nothing when the buffer was never allocated. -/
def buildSpec (alloc : ℕ → Bool) (host : Host) (spec : Spec) (image : ImageConfig)
    (ns : Option Octets) (containerId : Octets) (cdi : Option CdiEdits) : Option Octets :=
  let b := JBuf.appendAll ⟨alloc, 0, [], 0⟩ (emitSpec host spec image ns containerId cdi)
  if b.cap = 0 then none else some (b.data.take (b.data.length - 1))

end Strimserver.Oci
