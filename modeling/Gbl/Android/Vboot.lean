import Gbl.Avb.Ops
import Gbl.BootParams.Bootconfig
import Gbl.BootParams.Entry

/-!
# Verified boot for Android (`libgbl/src/android_boot/vboot.rs`)

`avb_verify_slot` hands the loaded images to libavb, judges the result, copies the command line that libavb made into
the bootconfig entry by entry, and tells the firmware.
-/

namespace Gbl.Android

open Lib Lib.Exec BootParams
open Fastboot (Bytes Text text)
open BootConfigBuilder (Appends writeFmt)

def utf8 (t : List Char) : Bytes := t.flatMap String.utf8EncodeChar

inductive BootStateColor where
  | green
  | yellow
  | orange
  | redEio
  | red
  deriving DecidableEq, Repr

def BootStateColor.display : BootStateColor → Text
  | green => text "green"
  | yellow => text "yellow"
  | orange => text "orange"
  | redEio => text "red_eio"
  | red => text "red"

inductive KeyValidationStatus where
  | valid
  | validCustomKey
  | invalid
  deriving DecidableEq, Repr

structure VbmetaData where
  partitionName : Text
  getPropertyValue : Text → Option Bytes

structure SlotVerifyData where
  cmdline : Option (List Char)
  vbmetaData : List VbmetaData

structure AvbReport where
  result : Except (SlotVerifyError × Option SlotVerifyData) SlotVerifyData
  keyValidationStatus : Option KeyValidationStatus

structure BuildProperties where
  bootOsVersion : Option Bytes := none
  bootSecurityPatch : Option Bytes := none
  systemOsVersion : Option Bytes := none
  systemSecurityPatch : Option Bytes := none
  vendorOsVersion : Option Bytes := none
  vendorSecurityPatch : Option Bytes := none
  deriving DecidableEq, Repr

abbrev Preloaded := List (Text × Bytes)

structure GblOps (ω : Type) where
  partitionSize : Text → ω → Except Error (Option Nat) × ω
  readFromPartitionSync : Text → Nat → Nat → ω → (Except Error Unit × Content) × ω
  readIsDeviceUnlocked : ω → Except IoError Bool × ω
  slotVerify : Nat → Preloaded → Bool → ω → AvbReport × ω
  handleVerificationResult : BootStateColor → Option Bytes → BuildProperties → ω → Except IoError Unit × ω
  fixupBootconfig : Bytes → Exec Error (ω × Bytes) (Option Bytes)
  length_fixup : ∀ current s, (fixupBootconfig current s).2.2.length = s.2.length

/-! ## Partitions to verify -/

def maxNumPartition : Nat := 16

def tryPushPreloaded (partitions : Preloaded) (name : Text) (data : Bytes) : Result Preloaded :=
  if partitions.length < maxNumPartition then .ok (partitions ++ [(name, data)])
  else err (.tooManyPartitions maxNumPartition)

def tryExtendPreloaded (partitions additional : Preloaded) : Result Preloaded :=
  if partitions.length + additional.length ≤ maxNumPartition then .ok (partitions ++ additional)
  else err (.tooManyPartitions maxNumPartition)

@[simp] theorem tryPushPreloaded_eq_ok {partitions partitions' : Preloaded} {name : Text} {data : Bytes} :
    tryPushPreloaded partitions name data = .ok partitions' ↔
      partitions.length < maxNumPartition ∧ partitions ++ [(name, data)] = partitions' := by
  unfold tryPushPreloaded
  split
  · next h => simp [h]
  · next h => simp [h]

@[simp] theorem tryExtendPreloaded_eq_ok {partitions additional partitions' : Preloaded} :
    tryExtendPreloaded partitions additional = .ok partitions' ↔
      partitions.length + additional.length ≤ maxNumPartition ∧ partitions ++ additional = partitions' := by
  unfold tryExtendPreloaded
  split
  · next h => simp [h]
  · next h => simp [h]

/-! ## Verification -/

section

variable {ω : Type} (P : GblOps ω)

abbrev Building (ω : Type) := ω × BootConfigBuilder

def onOps {α : Type} (f : Exec IoError ω α) : Exec IntegrationError (Building ω) α :=
  zoom Prod.fst (fun s w => (w, s.2)) (mapErr .avbIoError f)

def readIsDeviceUnlocked : Exec IoError ω Bool := fun w =>
  (Avb.fallbackNotImplemented true (P.readIsDeviceUnlocked w).1, (P.readIsDeviceUnlocked w).2)

def judge (unlocked : Bool) (report : AvbReport) :
    Res IntegrationError (BootStateColor × Option SlotVerifyData) :=
  match report.result, unlocked with
  | .ok data, true => .ok (.orange, some data)
  | .ok data, false =>
    match report.keyValidationStatus with
    | none => .error (.err (.avbIoError .notImplemented))
    | some .validCustomKey => .ok (.yellow, some data)
    | some _ => .ok (.green, some data)
  | .error (_, some data), true => .ok (.orange, some data)
  | .error _, _ => .ok (.red, none)

def avbDigestKey : List Char := "androidboot.vbmeta.digest".toList

def writeOrTooSmall (pieces : List Bytes) : Exec IntegrationError (Building ω) Unit :=
  mapErr (fun _ => .unificationError (.bufferTooSmall none)) (writeFmt pieces)

def Entry.line (entry : Entry) : List Bytes := entry.pieces.map utf8 ++ [text "\n"]

def addEntries : List (Result Entry) → Option (List Char) → Exec IntegrationError (Building ω) (Option (List Char))
  | [], digest => pure digest
  | .error e :: _, _ => mapErr .unificationError (lift (.error e))
  | .ok entry :: rest, digest => do
    writeOrTooSmall (Entry.line entry)
    addEntries rest (if entry.key = avbDigestKey then entry.value else digest)

def addCmdline : Option SlotVerifyData → Exec IntegrationError (Building ω) (Option (List Char))
  | none => pure none
  | some data =>
    match data.cmdline with
    | none => lift (.error .panic)
    | some cmdline => addEntries (CommandlineParser.items cmdline) none

def findVbmeta (data : SlotVerifyData) (name : String) : Option VbmetaData :=
  (data.vbmetaData.filter (·.partitionName = text name)).getLast?

def buildProperties : Option SlotVerifyData → Except IoError BuildProperties
  | none => .ok {}
  | some data =>
    match findVbmeta data "vbmeta" with
    | none => .error .noSuchPartition
    | some vbmeta =>
      let boot := (findVbmeta data "boot").getD vbmeta
      let system := (findVbmeta data "vbmeta_system").getD vbmeta
      let vendor := (findVbmeta data "vbmeta_vendor").getD vbmeta
      .ok
        { bootOsVersion := boot.getPropertyValue (text "com.android.build.boot.os_version")
          bootSecurityPatch := boot.getPropertyValue (text "com.android.build.boot.security_patch")
          systemOsVersion := system.getPropertyValue (text "com.android.build.system.os_version")
          systemSecurityPatch := system.getPropertyValue (text "com.android.build.system.security_patch")
          vendorOsVersion := vendor.getPropertyValue (text "com.android.build.vendor.os_version")
          vendorSecurityPatch := vendor.getPropertyValue (text "com.android.build.vendor.security_patch") }

def digestBufferSize : Nat := 2 * 64 + 1

def digestCstr : Option (List Char) → Except IoError (Option Bytes)
  | none => .ok none
  | some digest =>
    if (utf8 digest).length + 1 ≤ digestBufferSize then .ok (some ((utf8 digest).takeWhile (· ≠ 0)))
    else .error .invalidValueSize

def handleVerificationResult (data : Option SlotVerifyData) (color : BootStateColor) (digest : Option (List Char)) :
    Exec IoError ω Unit := do
  let properties ← lift (Res.ofExcept (buildProperties data))
  let digest ← lift (Res.ofExcept (digestCstr digest))
  fun w => ((Res.ofExcept (P.handleVerificationResult color digest properties w).1),
    (P.handleVerificationResult color digest properties w).2)

def verifiedBootState (color : BootStateColor) : List Bytes :=
  [text "androidboot.verifiedbootstate=", color.display, text "\n"]

def slotVerify (slot : Nat) (partitions : Preloaded) (unlocked : Bool) :
    Exec IntegrationError (Building ω) AvbReport := fun s =>
  (.ok (P.slotVerify slot partitions unlocked s.1).1, ((P.slotVerify slot partitions unlocked s.1).2, s.2))

def conclude (report : AvbReport) (color : BootStateColor) : Exec IntegrationError (Building ω) Unit :=
  match color, report.result with
  | .red, .error (e, _) => lift (.error (.err (.avbSlotVerifyError e)))
  | .red, .ok _ => lift (.error .panic)
  | color, _ => writeOrTooSmall (verifiedBootState color)

def avbVerifySlot (slot : Nat) (partitions : Preloaded) : Exec IntegrationError (Building ω) Unit := do
  mapErr .unificationError (lift (ensure (slot = 0 ∨ slot = 1) .invalidInput))
  let unlocked ← onOps (readIsDeviceUnlocked P)
  let report ← slotVerify P slot partitions unlocked
  let (color, data) ← lift (judge unlocked report)
  let digest ← addCmdline data
  onOps (handleVerificationResult P data color digest)
  conclude report color

end

/-! ## The parameters that verification adds -/

def entriesText (entries : List Entry) : Bytes := (entries.map fun entry => (Entry.line entry).flatten).flatten

def AvbParameters {ω : Type} (P : GblOps ω) (slot : Nat) (partitions : Preloaded) (w : ω) (params : Bytes) : Prop :=
  ∃ unlocked color data cmdline entries,
    (readIsDeviceUnlocked P w).1 = .ok unlocked ∧
    judge unlocked (P.slotVerify slot partitions unlocked (readIsDeviceUnlocked P w).2).1 = .ok (color, some data) ∧
    data.cmdline = some cmdline ∧ CommandlineParser.items cmdline = entries.map .ok ∧
    params = entriesText entries ++ (verifiedBootState color).flatten

section

variable {ω : Type} {P : GblOps ω} {b b' : BootConfigBuilder} {content : Bytes} {w w' : ω}

theorem onOps_eq_ok {α : Type} {f : Exec IoError ω α} {a : α} (h : onOps f (w, b) = (.ok a, (w', b'))) :
    f w = (.ok a, w') ∧ b' = b := by
  obtain ⟨hval, hstate⟩ := Prod.mk.inj h
  obtain ⟨hw, rfl⟩ := Prod.mk.inj hstate
  exact ⟨mapErr_run_eq_ok (Prod.ext hval hw), rfl⟩

theorem appends_writeOrTooSmall (pieces : List Bytes) :
    Appends (writeOrTooSmall pieces : Exec IntegrationError (Building ω) Unit) pieces.flatten :=
  (BootConfigBuilder.appends_writeFmt pieces).mapErr

theorem addEntries_ok {items : List (Result Entry)} {digest digest' : Option (List Char)} (h : b.Holds content)
    (hrun : addEntries items digest (w, b) = (.ok digest', (w', b'))) :
    ∃ entries, items = entries.map .ok ∧ w' = w ∧ b'.Holds (content ++ entriesText entries) ∧
      b'.buffer.length = b.buffer.length := by
  induction items generalizing digest b content with
  | nil =>
    cases hrun
    exact ⟨[], rfl, rfl, by simpa [entriesText] using h, rfl⟩
  | cons item items ih =>
    cases item with
    | error e =>
      have hfail := mapErr_run_eq_ok hrun
      cases hfail
    | ok entry =>
      obtain ⟨_, ⟨w₁, b₁⟩, hline, hrest⟩ := bind_run_eq_ok hrun
      obtain ⟨rfl, hholds₁, hlen₁⟩ := appends_writeOrTooSmall _ _ _ _ _ _ h hline
      obtain ⟨entries, rfl, rfl, hholds, hlen⟩ := ih hholds₁ hrest
      refine ⟨entry :: entries, rfl, rfl, ?_, hlen.trans hlen₁⟩
      rw [List.append_assoc] at hholds
      exact hholds

variable {report : AvbReport} {color : BootStateColor}

theorem ne_red_of_conclude {s s' : Building ω} (hrun : conclude report color s = (.ok (), s')) : color ≠ .red := by
  intro hred
  subst hred
  unfold conclude at hrun
  cases hresult : report.result with
  | ok data =>
    simp only [hresult] at hrun
    cases hrun
  | error e =>
    simp only [hresult] at hrun
    cases hrun

theorem conclude_ok (h : b.Holds content) (hrun : conclude report color (w, b) = (.ok (), (w', b'))) :
    w' = w ∧ b'.Holds (content ++ (verifiedBootState color).flatten) ∧ b'.buffer.length = b.buffer.length := by
  have hwrite : ∀ c, writeOrTooSmall (verifiedBootState c) (w, b) = (.ok (), (w', b')) →
      w' = w ∧ b'.Holds (content ++ (verifiedBootState c).flatten) ∧ b'.buffer.length = b.buffer.length :=
    fun c hc => appends_writeOrTooSmall _ _ _ _ _ _ h hc
  cases color with
  | red => exact absurd rfl (ne_red_of_conclude hrun)
  | green => exact hwrite _ hrun
  | yellow => exact hwrite _ hrun
  | orange => exact hwrite _ hrun
  | redEio => exact hwrite _ hrun

theorem judge_data {unlocked : Bool} {data : Option SlotVerifyData}
    (h : judge unlocked report = .ok (color, data)) (hcolor : color ≠ .red) : ∃ d, data = some d := by
  unfold judge at h
  split at h
  · cases h
    exact ⟨_, rfl⟩
  · split at h
    · cases h
    · cases h
      exact ⟨_, rfl⟩
    · cases h
      exact ⟨_, rfl⟩
  · cases h
    exact ⟨_, rfl⟩
  · cases h
    exact absurd rfl hcolor

theorem avbVerifySlot_ok {slot : Nat} {partitions : Preloaded} (h : b.Holds content)
    (hrun : avbVerifySlot P slot partitions (w, b) = (.ok (), (w', b'))) :
    ∃ params, AvbParameters P slot partitions w params ∧ b'.Holds (content ++ params) ∧
      b'.buffer.length = b.buffer.length := by
  obtain ⟨_, s₀, hslot, hrun₀⟩ := bind_run_eq_ok hrun
  obtain rfl : (w, b) = s₀ := congrArg Prod.snd (mapErr_run_eq_ok hslot)
  obtain ⟨unlocked, ⟨w₁, b₁⟩, hcall, hrun₁⟩ := bind_run_eq_ok hrun₀
  obtain ⟨hunlocked, rfl⟩ := onOps_eq_ok hcall
  obtain ⟨report, ⟨w₂, b₂⟩, hverify, hrun₂⟩ := bind_run_eq_ok hrun₁
  obtain ⟨hreport, hstate⟩ := Prod.mk.inj hverify
  obtain ⟨-, rfl⟩ := Prod.mk.inj hstate
  obtain rfl := Except.ok.inj hreport
  obtain ⟨⟨color, data⟩, hjudge, hrun₃⟩ := lift_bind_run_eq_ok hrun₂
  obtain ⟨digest, ⟨w₃, b₃⟩, hcmdline, hrun₄⟩ := bind_run_eq_ok hrun₃
  obtain ⟨_, ⟨w₄, b₄⟩, hhandle, hconclude⟩ := bind_run_eq_ok hrun₄
  obtain ⟨-, rfl⟩ := onOps_eq_ok hhandle
  -- The rest is about the bootconfig; the platform has no part in it.
  obtain ⟨d, rfl⟩ := judge_data hjudge (ne_red_of_conclude hconclude)
  unfold addCmdline at hcmdline
  cases htext : d.cmdline with
  | none =>
    simp only [htext] at hcmdline
    cases hcmdline
  | some cmdline =>
    simp only [htext] at hcmdline
    obtain ⟨entries, hitems, -, hholds₃, hlen₃⟩ := addEntries_ok h hcmdline
    obtain ⟨-, hholds, hlen⟩ := conclude_ok hholds₃ hconclude
    refine ⟨_, ⟨unlocked, color, d, cmdline, entries, by rw [hunlocked], ?_, htext, hitems, rfl⟩, ?_, hlen.trans hlen₃⟩
    · rw [hunlocked]
      exact hjudge
    · rwa [List.append_assoc] at hholds

end

end Gbl.Android
