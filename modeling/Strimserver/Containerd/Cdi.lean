import Strimserver.Containerd.Client

/-!
# CDI devices

`cdi.c`: the index of the CDI specs, the reference to a device, and the edits of a resolved device,
which wait in a variable of the process until a container is created.

What the directories hold when they are scanned is an argument of the scan, with the error
where a file cannot be parsed or no directory is there. `strim_cdi_get_pending_edits` copies the
edits into arrays of fixed sizes without a test; the model has the edits themselves, and
`copyIndices` the places of the copy.
-/

namespace Strimserver.Containerd

open Oci

/-- `STRIM_CDI_ERR_BADARG`. -/
def cdiErrBadArg : ℤ := -1

/-- `STRIM_CDI_ERR_NODIR`. -/
def cdiErrNoDir : ℤ := -2

/-- `STRIM_CDI_ERR_PARSE`. -/
def cdiErrParse : ℤ := -3

theorem cdiErrParse_ne : cdiErrParse ≠ 0 := by decide

/-- `STRIM_CDI_ERR_NOTFOUND`. -/
def cdiErrNotFound : ℤ := -4

/-- `STRIM_CDI_ERR_NOMEM`. -/
def cdiErrNoMem : ℤ := -5

/-- `STRIM_SPEC_MAX_MOUNTS`. -/
def specMaxMounts : ℕ := 256

/-- `STRIM_CDI_MAX_DEVICES`. -/
def cdiMaxDevices : ℕ := 32

/-- `strim_cdi_ref`. -/
structure CdiRef where
  (vendor deviceClass id : Octets)

/-- `cdi_spec_entry`. -/
structure CdiSpec where
  kind : Octets
  edits : CdiEdits
  /-- The names of the devices and their own edits. -/
  devices : List (Octets × CdiEdits)

/-- The variables of `cdi.c`. -/
structure Cdi where
  /-- `g_specs`, when `g_scanned` is set. -/
  index : Option (List CdiSpec)
  /-- `g_pending`, when `g_pending_valid` is set. -/
  pending : Option CdiEdits

namespace Cdi

/-- `strim_cdi_scan`, with what the directories hold. -/
def scan (found : Except Failure (List CdiSpec)) (_ : Cdi) : Except Failure Unit × Cdi :=
  match found with
  | .error rc => (.error rc, ⟨none, none⟩)
  | .ok specs => (.ok (), ⟨some specs, none⟩)

/-- `pending_append_edits`: the copies go behind what `g_pending` holds. -/
def pendingAppendEdits (pending src : CdiEdits) : CdiEdits where
  env := pending.env ++ src.env
  mounts := pending.mounts ++ src.mounts
  devices := pending.devices ++ src.devices.map CdiDevice.typed
  hooks := pending.hooks ++ src.hooks
  additionalGids := pending.additionalGids ++ src.additionalGids

/-- The first spec of the kind that a reference asks for. -/
def findSpec (ref : CdiRef) (specs : List CdiSpec) : Option CdiSpec :=
  specs.find? fun spec => spec.kind = ref.vendor ++ 0x2F :: ref.deviceClass

/-- The first device of the spec with the name that a reference asks for. -/
def findDevice (ref : CdiRef) (spec : CdiSpec) : Option (Octets × CdiEdits) :=
  spec.devices.find? fun device => device.1 = ref.id

/-- `strim_cdi_resolve`. The pending edits are freed once the spec is found, and appended to twice.
-/
def resolve (ref : CdiRef) (granted : Bool) (cdi : Cdi) : Except Failure Unit × Cdi :=
  match cdi.index with
  | none => (.error ⟨cdiErrNoDir, by decide⟩, cdi)
  | some specs =>
    match findSpec ref specs with
    | none => (.error ⟨cdiErrNotFound, by decide⟩, cdi)
    | some spec =>
      if granted then
        let pending := pendingAppendEdits noEdits spec.edits
        match findDevice ref spec with
        | none => (.error ⟨cdiErrNotFound, by decide⟩, { cdi with pending := none })
        | some device =>
          (.ok (), { cdi with pending := some (pendingAppendEdits pending device.2) })
      else (.error ⟨cdiErrNoMem, by decide⟩, { cdi with pending := none })

/-- `pending_drop_env_duplicates`. -/
def dropEnvDuplicates (baseEnv : List Octets) (edits : CdiEdits) : CdiEdits :=
  { edits with env := edits.env.filter fun entry => !envHasKey baseEnv entry }

/-- `strim_cdi_merge_edits`. -/
def mergeEdits (spec : Spec) (cdi : Cdi) : Except Failure Unit × Cdi :=
  match cdi.pending with
  | none => (.error ⟨cdiErrBadArg, by decide⟩, cdi)
  | some edits =>
    if specMaxEnv < edits.env.length then (.error ⟨cdiErrParse, by decide⟩, cdi)
    else if specMaxMounts < edits.mounts.length then (.error ⟨cdiErrParse, by decide⟩, cdi)
    else if cdiMaxDevices < edits.devices.length + edits.hooks.length then
      (.error ⟨cdiErrParse, by decide⟩, cdi)
    else (.ok (), { cdi with pending := some (dropEnvDuplicates spec.process.env edits) })

/-- `strim_cdi_get_pending_edits`. -/
def getPendingEdits (cdi : Cdi) : Option CdiEdits :=
  cdi.pending.map fun edits => { edits with additionalGids := edits.additionalGids.take 16 }

end Cdi

end Strimserver.Containerd
