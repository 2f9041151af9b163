import Gbl.Error
import Gbl.Fastboot.Text

/-!
# Bootconfig (`libbootparams`, `bootconfig.rs`)

A bootconfig section is a text followed by a trailer: its length, the sum of its bytes, a magic. The builder keeps a
section in a buffer and appends to it.
-/

namespace Gbl.BootParams

open Lib Lib.Exec
open Fastboot (Bytes text)

def bootconfigMagic : Bytes := text "#BOOTCONFIG\n"

def bootconfigTrailerSize : Nat := 4 + 4 + bootconfigMagic.length

structure Reader (ω : Type) where
  run : Bytes → Exec Error (ω × Bytes) Nat
  length_run : ∀ current s, (run current s).2.2.length = s.2.length

def Reader.copy {ω : Type} (data : Bytes) (short : Stop Error) : Reader ω where
  run _ := fun s =>
    if data.length ≤ s.2.length then (.ok data.length, (s.1, splice s.2 0 data)) else (.error short, s)
  length_run := by
    intro _ s
    split
    · next h => exact length_splice (by rwa [Nat.zero_add])
    · rfl

structure BootConfigBuilder where
  currentSize : Nat
  buffer : Bytes
  deriving DecidableEq, Repr

namespace BootConfigBuilder

def remainingCapacity (b : BootConfigBuilder) : Result Nat :=
  if b.currentSize + bootconfigTrailerSize ≤ b.buffer.length then
    .ok (b.buffer.length - b.currentSize - bootconfigTrailerSize)
  else panic

def configBytes (b : BootConfigBuilder) : Result Bytes :=
  if b.currentSize + bootconfigTrailerSize ≤ b.buffer.length then
    .ok (b.buffer.take (b.currentSize + bootconfigTrailerSize))
  else panic

def checksum (b : BootConfigBuilder) : UInt32 :=
  match (b.buffer.take b.currentSize).map UInt8.toUInt32 with
  | [] => 0
  | v :: vs => vs.foldl (· + ·) v

def updateTrailer : Exec Error BootConfigBuilder Unit := do
  let b ← get
  if b.currentSize < 2 ^ 32 then do
    assert (b.currentSize + bootconfigTrailerSize ≤ b.buffer.length)
    modify fun b => { b with
      buffer := splice b.buffer b.currentSize
        (leBytes 4 b.currentSize ++ leBytes 4 b.checksum.toNat ++ bootconfigMagic) }
  else lift (err (.other none))

def new (buffer : Bytes) : Result BootConfigBuilder :=
  if buffer.length < bootconfigTrailerSize then err (.bufferTooSmall (some bootconfigTrailerSize))
  else
    match updateTrailer ⟨0, buffer⟩ with
    | (.ok (), b) => .ok b
    | (.error e, _) => .error e

section Operations

variable {ω : Type}

def addWith (reader : Reader ω) : Exec Error (ω × BootConfigBuilder) Unit := do
  let s ← get
  let remains ← lift s.2.remainingCapacity
  let size ← zoom (fun s => (s.1, (s.2.buffer.drop s.2.currentSize).take remains))
    (fun s t => (t.1, { s.2 with buffer := splice s.2.buffer s.2.currentSize t.2 }))
    (reader.run (s.2.buffer.take s.2.currentSize))
  assert (size ≤ remains)
  modify fun s => (s.1, { s.2 with currentSize := s.2.currentSize + size })
  -- Content may have been modified. Re-compute trailer.
  zoom Prod.snd (fun s b => (s.1, b)) updateTrailer

def add (config : Bytes) : Exec Error (ω × BootConfigBuilder) Unit := do
  let s ← get
  let remains ← lift s.2.remainingCapacity
  if remains < config.length then lift (err (.bufferTooSmall (some config.length)))
  else addWith (Reader.copy config .panic)

def writeStr (s : Bytes) : Exec Error (ω × BootConfigBuilder) Unit :=
  mapErr (fun _ => .unsupported) (addWith (Reader.copy s (.err (.bufferTooSmall (some s.length)))))

def writeFmt : List Bytes → Exec Error (ω × BootConfigBuilder) Unit
  | [] => pure ()
  | piece :: pieces => do
    writeStr piece
    writeFmt pieces

end Operations

end BootConfigBuilder

/-! ## The section -/

def byteSum (content : Bytes) : Nat := (content.map UInt8.toNat).sum

def trailer (content : Bytes) : Bytes :=
  leBytes 4 content.length ++ leBytes 4 (byteSum content % 2 ^ 32) ++ bootconfigMagic

def bootconfigSection (content : Bytes) : Bytes := content ++ trailer content

@[simp] theorem length_trailer (content : Bytes) : (trailer content).length = bootconfigTrailerSize := by
  simp only [trailer, List.length_append, length_leBytes]
  rfl

namespace BootConfigBuilder

structure Holds (b : BootConfigBuilder) (content : Bytes) : Prop where
  size_eq : b.currentSize = content.length
  size_lt : content.length < 2 ^ 32
  fits : content.length + bootconfigTrailerSize ≤ b.buffer.length
  bytes_eq : b.buffer.take (content.length + bootconfigTrailerSize) = bootconfigSection content

variable {b b' : BootConfigBuilder} {content : Bytes}

theorem foldl_toNat (vs : List UInt8) (acc : UInt32) :
    ((vs.map UInt8.toUInt32).foldl (· + ·) acc).toNat = (acc.toNat + byteSum vs) % 2 ^ 32 := by
  induction vs generalizing acc with
  | nil => simp [byteSum, Nat.mod_eq_of_lt acc.toNat_lt]
  | cons v vs ih =>
    have hsum : byteSum (v :: vs) = v.toNat + byteSum vs := by simp [byteSum]
    rw [List.map_cons, List.foldl_cons, ih, UInt32.toNat_add, UInt8.toNat_toUInt32, hsum, Nat.mod_add_mod,
      Nat.add_assoc]

theorem checksum_toNat (b : BootConfigBuilder) :
    b.checksum.toNat = byteSum (b.buffer.take b.currentSize) % 2 ^ 32 := by
  unfold checksum
  cases hbytes : b.buffer.take b.currentSize with
  | nil => rfl
  | cons v vs =>
    have hsum : byteSum (v :: vs) = v.toNat + byteSum vs := by simp [byteSum]
    rw [hsum]
    show ((vs.map UInt8.toUInt32).foldl (· + ·) v.toUInt32).toNat = _
    rw [foldl_toNat, UInt8.toNat_toUInt32]

theorem Holds.remainingCapacity_eq (h : b.Holds content) :
    b.remainingCapacity = .ok (b.buffer.length - content.length - bootconfigTrailerSize) := by
  unfold remainingCapacity
  rw [h.size_eq, if_pos h.fits]

theorem Holds.configBytes_eq (h : b.Holds content) : b.configBytes = .ok (bootconfigSection content) := by
  unfold configBytes
  rw [h.size_eq, if_pos h.fits, h.bytes_eq]

theorem Holds.content_eq (h : b.Holds content) : b.buffer.take content.length = content := by
  have htake := congrArg (List.take content.length) h.bytes_eq
  rw [List.take_take, Nat.min_eq_left (Nat.le_add_right ..)] at htake
  rw [htake, bootconfigSection, List.take_left]

theorem updateTrailer_run (hsize : b.currentSize < 2 ^ 32)
    (hfits : b.currentSize + bootconfigTrailerSize ≤ b.buffer.length) :
    ∃ b', updateTrailer b = (.ok (), b') ∧ b'.Holds (b.buffer.take b.currentSize) ∧
      b'.buffer.length = b.buffer.length := by
  have hlen : (b.buffer.take b.currentSize).length = b.currentSize := by
    rw [List.length_take]
    omega
  refine ⟨{ b with buffer := splice b.buffer b.currentSize (trailer (b.buffer.take b.currentSize)) }, ?_, ?_, ?_⟩
  · unfold updateTrailer
    rw [bind_run_ok (get_run b), if_pos hsize, assert_bind_run_true (by simpa using hfits), modify_run, trailer, hlen,
      checksum_toNat]
  · refine ⟨hlen.symm, by rwa [hlen], ?_, ?_⟩
    · rw [hlen, length_splice (by rwa [length_trailer])]
      exact hfits
    · have htake := take_splice_end (d := trailer (b.buffer.take b.currentSize))
        (show b.currentSize ≤ b.buffer.length by omega)
      rw [length_trailer] at htake
      rw [hlen]
      exact htake
  · exact length_splice (by rwa [length_trailer])

theorem new_eq_ok {buffer : Bytes} (h : bootconfigTrailerSize ≤ buffer.length) :
    ∃ b, new buffer = .ok b ∧ b.Holds [] ∧ b.buffer.length = buffer.length := by
  obtain ⟨b, hrun, hholds, hlen⟩ := updateTrailer_run (b := ⟨0, buffer⟩) (Nat.two_pow_pos 32) (by simpa using h)
  refine ⟨b, ?_, hholds, hlen⟩
  unfold new
  rw [if_neg (Nat.not_lt.mpr h), hrun]

/-! ## One operation -/

def capacity (b : BootConfigBuilder) : Nat := b.buffer.length - b.currentSize - bootconfigTrailerSize

def space (b : BootConfigBuilder) : Bytes := (b.buffer.drop b.currentSize).take b.capacity

def filled (b : BootConfigBuilder) (out : Bytes) : BootConfigBuilder :=
  { b with buffer := splice b.buffer b.currentSize out }

theorem Holds.length_space (h : b.Holds content) : b.space.length = b.capacity := by
  have hfits := h.fits
  have hsize := h.size_eq
  unfold space capacity
  rw [List.length_take, List.length_drop]
  omega

section Callback

variable {ω : Type} {reader : Reader ω} {e e' : ω} {out : Bytes} {size : Nat}

theorem Holds.length_out (h : b.Holds content) {r : Result Nat}
    (hread : reader.run (b.buffer.take b.currentSize) (e, b.space) = (r, (e', out))) : out.length = b.capacity := by
  have hlen := reader.length_run (b.buffer.take b.currentSize) (e, b.space)
  rw [hread] at hlen
  exact hlen.trans h.length_space

theorem Holds.length_filled (h : b.Holds content) (hout : out.length = b.capacity) :
    (b.filled out).buffer.length = b.buffer.length := by
  have hfits := h.fits
  have hsize := h.size_eq
  apply length_splice
  unfold capacity at hout
  omega

theorem addWith_eq (h : b.Holds content) {r : Result Nat}
    (hread : reader.run (b.buffer.take b.currentSize) (e, b.space) = (r, (e', out))) :
    addWith reader (e, b) = ((do
      let size ← lift r
      assert (size ≤ b.capacity)
      modify fun s => (s.1, { s.2 with currentSize := s.2.currentSize + size })
      zoom Prod.snd (fun s b => (s.1, b)) updateTrailer : Exec Error (ω × BootConfigBuilder) Unit)
        (e', b.filled out)) := by
  have hcap : b.remainingCapacity = .ok b.capacity := by
    rw [h.remainingCapacity_eq, capacity, h.size_eq]
  unfold addWith
  rw [bind_run_ok (get_run _), bind_run_ok (lift_run_ok hcap _)]
  have hzoom : zoom (fun s : ω × BootConfigBuilder => (s.1, (s.2.buffer.drop s.2.currentSize).take b.capacity))
      (fun s t => (t.1, { s.2 with buffer := splice s.2.buffer s.2.currentSize t.2 }))
      (reader.run (b.buffer.take b.currentSize)) (e, b) = (r, (e', b.filled out)) := by
    show ((reader.run (b.buffer.take b.currentSize) (e, b.space)).1,
      ((reader.run (b.buffer.take b.currentSize) (e, b.space)).2.1,
        b.filled (reader.run (b.buffer.take b.currentSize) (e, b.space)).2.2)) = _
    rw [hread]
  cases r with
  | ok size => exact bind_run_ok hzoom
  | error x => exact bind_run_error hzoom

theorem addWith_ok (h : b.Holds content)
    (hread : reader.run (b.buffer.take b.currentSize) (e, b.space) = (.ok size, (e', out)))
    (hsize : size ≤ b.capacity) (hlt : b.currentSize + size < 2 ^ 32) :
    ∃ b', addWith reader (e, b) = (.ok (), (e', b')) ∧ b'.Holds (content ++ out.take size) ∧
      b'.buffer.length = b.buffer.length := by
  have hlen := h.length_filled (h.length_out hread)
  have hfits := h.fits
  have hcs := h.size_eq
  have hcap : b.currentSize + size + bootconfigTrailerSize ≤ b.buffer.length := by
    unfold capacity at hsize
    omega
  obtain ⟨b', hrun, hholds, hlen'⟩ := updateTrailer_run (b := ⟨b.currentSize + size, (b.filled out).buffer⟩) hlt
    (by rw [hlen]; exact hcap)
  refine ⟨b', ?_, ?_, hlen'.trans hlen⟩
  · rw [addWith_eq h hread]
    refine (assert_bind_run_true (by simpa using hsize)).trans ?_
    show ((updateTrailer ⟨b.currentSize + size, (b.filled out).buffer⟩).1,
      (e', (updateTrailer ⟨b.currentSize + size, (b.filled out).buffer⟩).2)) = _
    rw [hrun]
  · have hout := h.length_out hread
    have hcontent : (b.filled out).buffer.take (b.currentSize + size) = content ++ out.take size := by
      unfold filled splice
      have hpre : (b.buffer.take b.currentSize).length = b.currentSize := by
        rw [List.length_take]
        omega
      rw [List.append_assoc, List.take_append, hpre, Nat.add_sub_cancel_left,
        List.take_of_length_le (by omega), List.take_append_of_le_length (by omega), hcs, h.content_eq]
    rw [hcontent] at hholds
    exact hholds

theorem addWith_overflow (h : b.Holds content)
    (hread : reader.run (b.buffer.take b.currentSize) (e, b.space) = (.ok size, (e', out)))
    (hsize : size ≤ b.capacity) (hge : 2 ^ 32 ≤ b.currentSize + size) :
    addWith reader (e, b) = (err (.other none), (e', ⟨b.currentSize + size, (b.filled out).buffer⟩)) := by
  rw [addWith_eq h hread]
  refine (assert_bind_run_true (by simpa using hsize)).trans ?_
  have htrailer : updateTrailer ⟨b.currentSize + size, (b.filled out).buffer⟩ =
      (err (.other none), ⟨b.currentSize + size, (b.filled out).buffer⟩) := by
    unfold updateTrailer
    rw [bind_run_ok (get_run _), if_neg (Nat.not_lt.mpr hge)]
    rfl
  show ((updateTrailer ⟨b.currentSize + size, (b.filled out).buffer⟩).1,
    (e', (updateTrailer ⟨b.currentSize + size, (b.filled out).buffer⟩).2)) = _
  rw [htrailer]

theorem addWith_err (h : b.Holds content) {x : Error}
    (hread : reader.run (b.buffer.take b.currentSize) (e, b.space) = (.error (.err x), (e', out))) :
    addWith reader (e, b) = (.error (.err x), (e', b.filled out)) := by
  rw [addWith_eq h hread]
  rfl

theorem Holds.filled_space (h : b.Holds content) : b.filled b.space = b := by
  have hfits := h.fits
  have hcs := h.size_eq
  unfold filled space
  rw [splice_take_drop]
  unfold capacity
  omega

theorem Holds.filled_iff (h : b.Holds content) (hout : out.length = b.capacity) :
    (b.filled out).configBytes = b.configBytes ↔
      out.take bootconfigTrailerSize = b.space.take bootconfigTrailerSize := by
  have hfits := h.fits
  have hcs := h.size_eq
  have hspace := h.length_space
  have hpre : (b.buffer.take b.currentSize).length = b.currentSize := by
    rw [List.length_take]
    omega
  have hbytes : ∀ d : Bytes, d.length = b.capacity → (b.filled d).configBytes =
      .ok (b.buffer.take b.currentSize ++ (d.take bootconfigTrailerSize ++
        (b.buffer.drop (b.currentSize + b.capacity)).take (bootconfigTrailerSize - b.capacity))) := by
    intro d hd
    unfold configBytes
    rw [h.length_filled hd]
    show (if b.currentSize + bootconfigTrailerSize ≤ b.buffer.length then _ else _) = _
    rw [if_pos (by omega)]
    show Except.ok ((b.buffer.take b.currentSize ++ d ++ b.buffer.drop (b.currentSize + d.length)).take
      (b.currentSize + bootconfigTrailerSize)) = _
    rw [List.append_assoc, List.take_append, hpre, Nat.add_sub_cancel_left, List.take_of_length_le (by omega),
      List.take_append, hd]
  have hold := hbytes b.space hspace
  rw [h.filled_space] at hold
  rw [hbytes out hout, hold]
  constructor
  · intro heq
    have happ := List.append_cancel_left (Except.ok.inj heq)
    exact List.append_cancel_right happ
  · intro heq
    rw [heq]

theorem Holds.of_filled (h : b.Holds content) (hout : out.length = b.capacity)
    (hkeep : out.take bootconfigTrailerSize = b.space.take bootconfigTrailerSize) :
    (b.filled out).Holds content := by
  have hbytes := (h.filled_iff hout).mpr hkeep
  have hlen := h.length_filled hout
  refine ⟨h.size_eq, h.size_lt, by rw [hlen]; exact h.fits, ?_⟩
  rw [h.configBytes_eq] at hbytes
  unfold configBytes at hbytes
  split at hbytes
  · rw [← h.size_eq]
    exact Except.ok.inj hbytes
  · exact absurd hbytes Res.error_ne_ok

end Callback

section Texts

variable {ω : Type} {e : ω} {data : Bytes} {short : Stop Error}

theorem Holds.capacity_of_length (h : b.Holds content) (h' : b'.Holds (content ++ data))
    (hlen : b'.buffer.length = b.buffer.length) : b'.capacity = b.capacity - data.length := by
  unfold capacity
  rw [h.size_eq, h'.size_eq, hlen, List.length_append]
  omega

theorem copy_run_ok (h : b.Holds content) (hfits : data.length ≤ b.capacity) :
    (Reader.copy data short).run (b.buffer.take b.currentSize) (e, b.space) =
      (.ok data.length, (e, splice b.space 0 data)) :=
  if_pos (by rwa [h.length_space])

theorem copy_run_short (h : b.Holds content) (hshort : b.capacity < data.length) :
    (Reader.copy data short).run (b.buffer.take b.currentSize) (e, b.space) = (.error short, (e, b.space)) :=
  if_neg (by rw [h.length_space]; exact Nat.not_le.mpr hshort)

theorem addWith_copy_ok (h : b.Holds content) (hfits : data.length ≤ b.capacity)
    (hlt : b.currentSize + data.length < 2 ^ 32) :
    ∃ b', addWith (Reader.copy data short) (e, b) = (.ok (), (e, b')) ∧ b'.Holds (content ++ data) ∧
      b'.buffer.length = b.buffer.length := by
  obtain ⟨b', hrun, hholds, hlen⟩ := addWith_ok h (copy_run_ok h hfits) hfits hlt
  rw [splice_zero, List.take_left] at hholds
  exact ⟨b', hrun, hholds, hlen⟩

theorem addWith_copy_short (h : b.Holds content) (hshort : b.capacity < data.length) {x : Error} :
    addWith (Reader.copy data (.err x)) (e, b) = (err x, (e, b)) := by
  have hrun : addWith (Reader.copy data (.err x)) (e, b) = (err x, (e, b.filled b.space)) :=
    addWith_err h (copy_run_short h hshort)
  rwa [h.filled_space] at hrun

theorem add_eq (h : b.Holds content) (hfits : data.length ≤ b.capacity) :
    add data (e, b) = addWith (Reader.copy data .panic) (e, b) := by
  have hcap : b.remainingCapacity = .ok b.capacity := by
    rw [h.remainingCapacity_eq, capacity, h.size_eq]
  unfold add
  rw [bind_run_ok (get_run _), bind_run_ok (lift_run_ok hcap _), if_neg (Nat.not_lt.mpr hfits)]

theorem add_short (h : b.Holds content) (hshort : b.capacity < data.length) :
    add data (e, b) = (err (.bufferTooSmall (some data.length)), (e, b)) := by
  have hcap : b.remainingCapacity = .ok b.capacity := by
    rw [h.remainingCapacity_eq, capacity, h.size_eq]
  unfold add
  rw [bind_run_ok (get_run _), bind_run_ok (lift_run_ok hcap _), if_pos hshort]
  rfl

theorem writeStr_ok (h : b.Holds content) (hfits : data.length ≤ b.capacity)
    (hlt : b.currentSize + data.length < 2 ^ 32) :
    ∃ b', writeStr data (e, b) = (.ok (), (e, b')) ∧ b'.Holds (content ++ data) ∧
      b'.buffer.length = b.buffer.length := by
  obtain ⟨b', hrun, hholds, hlen⟩ := addWith_copy_ok h hfits hlt
  exact ⟨b', mapErr_run_ok hrun, hholds, hlen⟩

theorem writeStr_overflow (h : b.Holds content) (hfits : data.length ≤ b.capacity)
    (hge : 2 ^ 32 ≤ b.currentSize + data.length) :
    ∃ b', writeStr data (e, b) = (err .unsupported, (e, b')) ∧ b'.currentSize = b.currentSize + data.length :=
  ⟨_, mapErr_run_err (addWith_overflow h (copy_run_ok h hfits) hfits hge), rfl⟩

theorem writeStr_short (h : b.Holds content) (hshort : b.capacity < data.length) :
    writeStr data (e, b) = (err .unsupported, (e, b)) :=
  mapErr_run_err (addWith_copy_short h hshort)

def Refused (capacity : Nat) : List Bytes → Prop
  | [] => False
  | piece :: pieces => if piece = [] then Refused capacity pieces else capacity < piece.length

variable {pieces : List Bytes}

theorem writeFmt_ok (h : b.Holds content) (hfits : pieces.flatten.length ≤ b.capacity)
    (hlt : b.currentSize + pieces.flatten.length < 2 ^ 32) :
    ∃ b', writeFmt pieces (e, b) = (.ok (), (e, b')) ∧ b'.Holds (content ++ pieces.flatten) ∧
      b'.buffer.length = b.buffer.length := by
  induction pieces generalizing b content with
  | nil => exact ⟨b, rfl, by simpa using h, rfl⟩
  | cons piece pieces ih =>
    rw [List.flatten_cons, List.length_append] at hfits hlt
    obtain ⟨b₁, hrun₁, hholds₁, hlen₁⟩ := writeStr_ok (e := e) h (by omega : piece.length ≤ b.capacity) (by omega)
    have hcap := h.capacity_of_length hholds₁ hlen₁
    have hcs : b₁.currentSize = b.currentSize + piece.length := by
      rw [hholds₁.size_eq, List.length_append, h.size_eq]
    obtain ⟨b', hrun, hholds, hlen⟩ := ih hholds₁ (by omega) (by omega)
    refine ⟨b', (bind_run_ok hrun₁).trans hrun, ?_, hlen.trans hlen₁⟩
    rwa [List.flatten_cons, ← List.append_assoc]

theorem writeFmt_refused (h : b.Holds content) (hrefused : Refused b.capacity pieces) :
    ∃ b', writeFmt pieces (e, b) = (err .unsupported, (e, b')) ∧ b'.Holds content := by
  induction pieces generalizing b with
  | nil => exact absurd hrefused id
  | cons piece pieces ih =>
    rw [Refused] at hrefused
    split at hrefused
    · next hempty =>
      subst hempty
      have hlt := h.size_lt
      rw [← h.size_eq] at hlt
      obtain ⟨b₁, hrun₁, hholds₁, hlen₁⟩ :=
        writeStr_ok (e := e) h (show ([] : Bytes).length ≤ b.capacity from Nat.zero_le _) hlt
      have hcap := h.capacity_of_length hholds₁ hlen₁
      rw [List.append_nil] at hholds₁
      obtain ⟨b', hrun, hholds⟩ := ih hholds₁ (by rwa [hcap])
      exact ⟨b', (bind_run_ok hrun₁).trans hrun, hholds⟩
    · exact ⟨b, bind_run_error (writeStr_short h hrefused), h⟩

theorem writeFmt_broken (h : b.Holds content)
    (hroom : ¬ (pieces.flatten.length ≤ b.capacity ∧ b.currentSize + pieces.flatten.length < 2 ^ 32))
    (hrefused : ¬ Refused b.capacity pieces) :
    ∃ b', writeFmt pieces (e, b) = (err .unsupported, (e, b')) ∧ b.currentSize < b'.currentSize := by
  have hlt := h.size_lt
  rw [← h.size_eq] at hlt
  induction pieces generalizing b content with
  | nil => exact absurd ⟨Nat.zero_le _, hlt⟩ hroom
  | cons piece pieces ih =>
    rw [List.flatten_cons, List.length_append] at hroom
    rw [Refused] at hrefused
    by_cases hempty : piece = []
    · subst hempty
      rw [if_pos rfl] at hrefused
      obtain ⟨b₁, hrun₁, hholds₁, hlen₁⟩ :=
        writeStr_ok (e := e) h (show ([] : Bytes).length ≤ b.capacity from Nat.zero_le _) hlt
      have hcap := h.capacity_of_length hholds₁ hlen₁
      rw [List.append_nil] at hholds₁
      have hcs : b₁.currentSize = b.currentSize := by rw [hholds₁.size_eq, h.size_eq]
      rw [List.length_nil, Nat.zero_add] at hroom
      obtain ⟨b', hrun, hgrown⟩ := ih hholds₁ (by rwa [hcap, hcs]) (by rwa [hcap]) (by rwa [hcs])
      exact ⟨b', (bind_run_ok hrun₁).trans hrun, by rwa [hcs] at hgrown⟩
    · rw [if_neg hempty] at hrefused
      have hpos : 0 < piece.length := List.length_pos_of_ne_nil hempty
      by_cases hover : 2 ^ 32 ≤ b.currentSize + piece.length
      · obtain ⟨b', hrun, hcs⟩ := writeStr_overflow (e := e) h (Nat.not_lt.mp hrefused) hover
        exact ⟨b', bind_run_error hrun, by omega⟩
      · obtain ⟨b₁, hrun₁, hholds₁, hlen₁⟩ := writeStr_ok (e := e) h (Nat.not_lt.mp hrefused) (Nat.not_le.mp hover)
        have hcap := h.capacity_of_length hholds₁ hlen₁
        have hcs : b₁.currentSize = b.currentSize + piece.length := by
          rw [hholds₁.size_eq, List.length_append, h.size_eq]
        by_cases hlater : Refused b₁.capacity pieces
        · obtain ⟨b', hrun, hholds⟩ := writeFmt_refused (e := e) hholds₁ hlater
          refine ⟨b', (bind_run_ok hrun₁).trans hrun, ?_⟩
          rw [hholds.size_eq, ← hholds₁.size_eq]
          omega
        · obtain ⟨b', hrun, hgrown⟩ := ih hholds₁ (by omega) hlater (by omega)
          exact ⟨b', (bind_run_ok hrun₁).trans hrun, by omega⟩

end Texts

/-! ## What a call that succeeds has appended -/

section Successful

variable {ω : Type} {reader : Reader ω} {e e' : ω}

theorem addWith_inv (h : b.Holds content) (hrun : addWith reader (e, b) = (.ok (), (e', b'))) :
    ∃ size out, reader.run (b.buffer.take b.currentSize) (e, b.space) = (.ok size, (e', out)) ∧
      size ≤ out.length ∧ b'.Holds (content ++ out.take size) ∧ b'.buffer.length = b.buffer.length := by
  rcases hread : reader.run (b.buffer.take b.currentSize) (e, b.space) with ⟨x | size, e₁, out⟩
  · rw [addWith_eq h hread] at hrun
    cases hrun
  · have hlen := h.length_out hread
    by_cases hsize : size ≤ b.capacity
    · by_cases hlt : b.currentSize + size < 2 ^ 32
      · obtain ⟨b₁, hrun₁, hholds, hlen₁⟩ := addWith_ok h hread hsize hlt
        rw [hrun₁] at hrun
        cases hrun
        exact ⟨size, out, rfl, hlen ▸ hsize, hholds, hlen₁⟩
      · rw [addWith_overflow h hread hsize (Nat.not_lt.mp hlt)] at hrun
        cases hrun
    · rw [addWith_eq h hread, bind_run_ok (lift_run_ok rfl _), assert_bind_run_false (decide_eq_false hsize)] at hrun
      cases hrun

def Appends {ε : Type} (m : Exec ε (ω × BootConfigBuilder) Unit) (d : Bytes) : Prop :=
  ∀ e b content e' b', b.Holds content → m (e, b) = (.ok (), (e', b')) →
    e' = e ∧ b'.Holds (content ++ d) ∧ b'.buffer.length = b.buffer.length

variable {ε : Type} {m m' : Exec ε (ω × BootConfigBuilder) Unit} {d d' : Bytes}

theorem appends_pure : Appends (pure () : Exec ε (ω × BootConfigBuilder) Unit) [] := by
  intro e b content e' b' h hrun
  cases hrun
  exact ⟨rfl, by rwa [List.append_nil], rfl⟩

theorem Appends.bind (h : Appends m d) (h' : Appends m' d') : Appends (m >>= fun _ => m') (d ++ d') := by
  intro e b content e' b' hholds hrun
  obtain ⟨_, ⟨e₁, b₁⟩, hrun₁, hrun₂⟩ := bind_run_eq_ok hrun
  obtain ⟨rfl, hholds₁, hlen₁⟩ := h e b content e₁ b₁ hholds hrun₁
  obtain ⟨rfl, hholds₂, hlen₂⟩ := h' _ b₁ _ e' b' hholds₁ hrun₂
  exact ⟨rfl, by rwa [← List.append_assoc], hlen₂.trans hlen₁⟩

theorem Appends.mapErr {ε' : Type} {f : ε → ε'} (h : Appends m d) : Appends (Exec.mapErr f m) d :=
  fun e b content e' b' hholds hrun => h e b content e' b' hholds (mapErr_run_eq_ok hrun)

theorem appends_copy (data : Bytes) (short : Stop Error) :
    Appends (addWith (Reader.copy data short) : Exec Error (ω × BootConfigBuilder) Unit) data := by
  intro e b content e' b' h hrun
  obtain ⟨size, out, hread, -, hholds, hlen⟩ := addWith_inv h hrun
  by_cases hfits : data.length ≤ b.capacity
  · rw [copy_run_ok h hfits] at hread
    cases hread
    rw [splice_zero, List.take_left] at hholds
    exact ⟨rfl, hholds, hlen⟩
  · rw [copy_run_short h (Nat.not_le.mp hfits)] at hread
    cases hread

theorem appends_writeFmt (pieces : List Bytes) :
    Appends (writeFmt pieces : Exec Error (ω × BootConfigBuilder) Unit) pieces.flatten := by
  induction pieces with
  | nil => exact appends_pure
  | cons piece pieces ih =>
    rw [List.flatten_cons]
    exact (appends_copy piece _).mapErr.bind ih

def Fits {ε : Type} (m : Exec ε (ω × BootConfigBuilder) Unit) (d : Bytes) : Prop :=
  ∀ e b content, b.Holds content → content.length + d.length + bootconfigTrailerSize ≤ b.buffer.length →
    b.buffer.length < 2 ^ 32 → Succeeds m (e, b)

theorem Holds.room (h : b.Holds content) (hroom : content.length + d.length + bootconfigTrailerSize ≤ b.buffer.length)
    (hlt : b.buffer.length < 2 ^ 32) : d.length ≤ b.capacity ∧ b.currentSize + d.length < 2 ^ 32 := by
  have hsize := h.size_eq
  unfold capacity
  omega

theorem fits_pure : Fits (pure () : Exec ε (ω × BootConfigBuilder) Unit) [] := by
  intro e b content h hroom hlt
  exact succeeds_pure () (e, b)

theorem Fits.mapErr {ε' : Type} {f : ε → ε'} (h : Fits m d) : Fits (Exec.mapErr f m) d :=
  fun e b content hholds hroom hlt => (h e b content hholds hroom hlt).mapErr

theorem fits_copy (data : Bytes) (short : Stop Error) :
    Fits (addWith (Reader.copy data short) : Exec Error (ω × BootConfigBuilder) Unit) data := by
  intro e b content h hroom hlt
  obtain ⟨hfits, hsize⟩ := h.room hroom hlt
  obtain ⟨b', hrun, -⟩ := addWith_copy_ok h hfits hsize
  exact .of_run hrun

theorem fits_writeFmt (pieces : List Bytes) :
    Fits (writeFmt pieces : Exec Error (ω × BootConfigBuilder) Unit) pieces.flatten := by
  intro e b content h hroom hlt
  obtain ⟨hfits, hsize⟩ := h.room hroom hlt
  obtain ⟨b', hrun, -⟩ := writeFmt_ok h hfits hsize
  exact .of_run hrun

end Successful

end BootConfigBuilder

/-! ## Sequences of operations -/

open BootConfigBuilder

inductive Op (ω : Type) where
  | add (config : Bytes)
  | addWith (reader : Reader ω)
  | writeFmt (pieces : List Bytes)

namespace Op

variable {ω : Type}

def run : Op ω → Exec Error (ω × BootConfigBuilder) Unit
  | add config => BootConfigBuilder.add config
  | addWith reader => BootConfigBuilder.addWith reader
  | writeFmt pieces => BootConfigBuilder.writeFmt pieces

def readerRun (reader : Reader ω) (s : ω × BootConfigBuilder) : Result Nat × (ω × Bytes) :=
  reader.run (s.2.buffer.take s.2.currentSize) (s.1, s.2.space)

def appended (s : ω × BootConfigBuilder) : Op ω → Bytes
  | add config => config
  | addWith reader =>
    match readerRun reader s with
    | (.ok size, (_, out)) => out.take size
    | (.error _, _) => []
  | writeFmt pieces => pieces.flatten

def Proper : Op ω → Prop
  | add _ => True
  | addWith reader => ∀ current s, (reader.run current s).1.Returns ∧
      ∀ n, (reader.run current s).1 = .ok n → n ≤ s.2.length
  | writeFmt _ => True

def Careful (s : ω × BootConfigBuilder) : Op ω → Prop
  | add config => config.length ≤ s.2.capacity → s.2.currentSize + config.length < 2 ^ 32
  | addWith reader =>
    match readerRun reader s with
    | (.ok size, _) => s.2.currentSize + size < 2 ^ 32
    | (.error _, (_, out)) => out.take bootconfigTrailerSize = s.2.space.take bootconfigTrailerSize
  | writeFmt pieces =>
    (pieces.flatten.length ≤ s.2.capacity ∧ s.2.currentSize + pieces.flatten.length < 2 ^ 32) ∨
      Refused s.2.capacity pieces

def Outcome (op : Op ω) (s : ω × BootConfigBuilder) (content : Bytes)
    (Q : ω × BootConfigBuilder → Bytes → Prop) : Prop :=
  match op.run s with
  | (.ok (), s') => Q s' (content ++ op.appended s)
  | (.error (.err _), s') => Q s' content
  | (.error _, _) => False

variable {op : Op ω} {s s' : ω × BootConfigBuilder} {content : Bytes} {Q : ω × BootConfigBuilder → Bytes → Prop}

theorem outcome_of_ok (hrun : op.run s = (.ok (), s')) (h : Q s' (content ++ op.appended s)) :
    op.Outcome s content Q := by
  unfold Outcome
  rw [hrun]
  exact h

theorem outcome_of_err {x : Error} (hrun : op.run s = (.error (.err x), s')) (h : Q s' content) :
    op.Outcome s content Q := by
  unfold Outcome
  rw [hrun]
  exact h

theorem Careful.outcome (hcareful : op.Careful s) (hproper : op.Proper) (h : s.2.Holds content) :
    op.Outcome s content fun s' content => s'.2.Holds content := by
  obtain ⟨e, b⟩ := s
  cases op with
  | add config =>
    by_cases hfits : config.length ≤ b.capacity
    · obtain ⟨b', hrun, hholds, -⟩ := addWith_copy_ok (e := e) h hfits (hcareful hfits)
      exact outcome_of_ok ((add_eq h hfits).trans hrun) hholds
    · exact outcome_of_err (add_short h (Nat.not_le.mp hfits)) h
  | addWith reader =>
    obtain ⟨hreturns, hbound⟩ := hproper (b.buffer.take b.currentSize) (e, b.space)
    rcases hread : reader.run (b.buffer.take b.currentSize) (e, b.space) with ⟨(x | _ | _) | size, e', out⟩
    · simp only [Careful, readerRun, hread] at hcareful
      exact outcome_of_err (addWith_err h hread) (h.of_filled (h.length_out hread) hcareful)
    · rw [hread] at hreturns
      exact absurd hreturns id
    · rw [hread] at hreturns
      exact absurd hreturns id
    · simp only [Careful, readerRun, hread] at hcareful
      have hsize := hbound size (by rw [hread])
      rw [h.length_space] at hsize
      obtain ⟨b', hrun, hholds, -⟩ := addWith_ok h hread hsize hcareful
      refine outcome_of_ok hrun ?_
      simpa only [appended, readerRun, hread] using hholds
  | writeFmt pieces =>
    rcases hcareful with ⟨hfits, hlt⟩ | hrefused
    · obtain ⟨b', hrun, hholds, -⟩ := writeFmt_ok (e := e) h hfits hlt
      exact outcome_of_ok hrun hholds
    · obtain ⟨b', hrun, hholds⟩ := writeFmt_refused (e := e) h hrefused
      exact outcome_of_err hrun hholds

theorem length_of_configBytes {b : BootConfigBuilder} {bytes : Bytes} (h : b.configBytes = .ok bytes) :
    bytes.length = b.currentSize + bootconfigTrailerSize := by
  unfold configBytes at h
  split at h
  · next hle => rw [← Except.ok.inj h, List.length_take, Nat.min_eq_left hle]
  · exact absurd h Res.error_ne_ok

theorem false_of_grown {b : BootConfigBuilder} (h : s.2.Holds content) (hgrown : s.2.currentSize < b.currentSize)
    (hsame : b.configBytes = .ok (bootconfigSection content)) : False := by
  have hlen := length_of_configBytes hsame
  rw [length_of_configBytes h.configBytes_eq] at hlen
  omega

theorem careful_of_outcome (hproper : op.Proper) (h : s.2.Holds content)
    (hout : op.Outcome s content fun s' content => s'.2.configBytes = .ok (bootconfigSection content)) :
    op.Careful s := by
  obtain ⟨e, b⟩ := s
  unfold Outcome at hout
  cases op with
  | add config =>
    intro hfits
    by_contra hge
    replace hge : ¬ b.currentSize + config.length < 2 ^ 32 := hge
    have hrun : (add config).run (e, b) = _ :=
      (add_eq h hfits).trans (addWith_overflow h (copy_run_ok h hfits) hfits (Nat.not_lt.mp hge))
    rw [hrun] at hout
    have hlt : b.currentSize < 2 ^ 32 := by
      rw [h.size_eq]
      exact h.size_lt
    refine false_of_grown h ?_ hout
    show b.currentSize < b.currentSize + config.length
    omega
  | addWith reader =>
    obtain ⟨hreturns, hbound⟩ := hproper (b.buffer.take b.currentSize) (e, b.space)
    rcases hread : reader.run (b.buffer.take b.currentSize) (e, b.space) with ⟨(x | _ | _) | size, e', out⟩
    · simp only [Careful, readerRun, hread]
      have hrun : (addWith reader).run (e, b) = _ := addWith_err h hread
      rw [hrun] at hout
      refine (h.filled_iff (h.length_out hread)).mp ?_
      rw [h.configBytes_eq]
      exact hout
    · rw [hread] at hreturns
      exact absurd hreturns id
    · rw [hread] at hreturns
      exact absurd hreturns id
    · simp only [Careful, readerRun, hread]
      have hsize := hbound size (by rw [hread])
      rw [h.length_space] at hsize
      by_contra hge
      have hrun : (addWith reader).run (e, b) = _ := addWith_overflow h hread hsize (Nat.not_lt.mp hge)
      rw [hrun] at hout
      have hlt : b.currentSize < 2 ^ 32 := by
        rw [h.size_eq]
        exact h.size_lt
      refine false_of_grown h ?_ hout
      show b.currentSize < b.currentSize + size
      omega
  | writeFmt pieces =>
    by_contra hnot
    simp only [Careful, not_or] at hnot
    obtain ⟨b', hrun, hgrown⟩ := writeFmt_broken (e := e) h hnot.1 hnot.2
    have hrun' : (writeFmt pieces).run (e, b) = _ := hrun
    rw [hrun'] at hout
    exact false_of_grown h hgrown hout

end Op

section Runs

variable {ω : Type}

def WellFormed : List (Op ω) → ω × BootConfigBuilder → Bytes → Prop
  | [], s, content => s.2.configBytes = .ok (bootconfigSection content)
  | op :: ops, s, content =>
    s.2.configBytes = .ok (bootconfigSection content) ∧ op.Outcome s content (WellFormed ops)

def CarefulRun : List (Op ω) → ω × BootConfigBuilder → Prop
  | [], _ => True
  | op :: ops, s => op.Careful s ∧ CarefulRun ops (op.run s).2

variable {ops : List (Op ω)} {s : ω × BootConfigBuilder} {content : Bytes}

theorem WellFormed.configBytes_eq (h : WellFormed ops s content) :
    s.2.configBytes = .ok (bootconfigSection content) := by
  cases ops with
  | nil => exact h
  | cons op ops => exact h.1

theorem Op.Outcome.mono {op : Op ω} {Q R : ω × BootConfigBuilder → Bytes → Prop} (h : op.Outcome s content Q)
    (hQR : ∀ content', Q (op.run s).2 content' → R (op.run s).2 content') : op.Outcome s content R := by
  unfold Op.Outcome at h ⊢
  rcases hrun : op.run s with ⟨(x | _ | _) | u, s'⟩ <;> rw [hrun] at h hQR
  · exact hQR _ h
  · exact absurd h id
  · exact absurd h id
  · exact hQR _ h

theorem wellFormed_iff (hproper : ∀ op ∈ ops, op.Proper) (h : s.2.Holds content) :
    WellFormed ops s content ↔ CarefulRun ops s := by
  induction ops generalizing s content with
  | nil => exact iff_of_true h.configBytes_eq trivial
  | cons op ops ih =>
    have hop := hproper op (List.mem_cons_self ..)
    have hops := fun op' h' => hproper op' (List.mem_cons_of_mem op h')
    constructor
    · intro ⟨_, hout⟩
      have hcareful := Op.careful_of_outcome hop h (hout.mono fun _ hwf => hwf.configBytes_eq)
      -- What the operation left is a section, so the rest of the run starts from one.
      have hnext := hcareful.outcome hop h
      refine ⟨hcareful, ?_⟩
      unfold Op.Outcome at hout hnext
      rcases hrun : op.run s with ⟨(x | _ | _) | u, s'⟩ <;> rw [hrun] at hout hnext
      · exact (ih hops hnext).mp hout
      · exact absurd hout id
      · exact absurd hout id
      · exact (ih hops hnext).mp hout
    · intro ⟨hcareful, hrest⟩
      refine ⟨h.configBytes_eq, (hcareful.outcome hop h).mono fun content' hholds => ?_⟩
      exact (ih hops hholds).mpr hrest

/-- On every buffer that holds a trailer a builder can be made, and through a run of operations it holds a
well-formed section exactly if the operations are careful. -/
theorem bootconfig_wellFormed_iff {buffer : Bytes} (hbuffer : bootconfigTrailerSize ≤ buffer.length)
    {ops : List (Op ω)} (hproper : ∀ op ∈ ops, op.Proper) (e : ω) :
    ∃ b, BootConfigBuilder.new buffer = .ok b ∧ (WellFormed ops (e, b) [] ↔ CarefulRun ops (e, b)) := by
  obtain ⟨b, hnew, hholds, -⟩ := new_eq_ok hbuffer
  exact ⟨b, hnew, wellFormed_iff hproper hholds⟩

def threeWays : List (Op Unit) :=
  [.add (text "a=1\n"), .addWith (Reader.copy (text "b=2\n") (.err .invalidInput)), .writeFmt [text "c=", text "3\n"]]

theorem proper_threeWays : ∀ op ∈ threeWays, op.Proper := by
  refine List.forall_mem_cons.2 ⟨trivial, List.forall_mem_cons.2 ⟨fun l s => ?_, List.forall_mem_singleton.2 trivial⟩⟩
  by_cases hfits : (text "b=2\n").length ≤ s.2.length
  · have hrun : ((Reader.copy (text "b=2\n") (.err .invalidInput)).run l s).1 = .ok (text "b=2\n").length :=
      congrArg Prod.fst (if_pos hfits)
    rw [hrun]
    refine ⟨trivial, ?_⟩
    rintro n ⟨⟩
    exact hfits
  · have hrun : ((Reader.copy (text "b=2\n") (.err .invalidInput)).run l s).1 = err .invalidInput :=
      congrArg Prod.fst (if_neg hfits)
    rw [hrun]
    refine ⟨trivial, ?_⟩
    rintro n ⟨⟩

theorem bootconfig_wellFormed_three :
    ∃ b, BootConfigBuilder.new (List.replicate 40 0) = .ok b ∧ WellFormed threeWays ((), b) [] := by
  obtain ⟨b, hnew, hiff⟩ := bootconfig_wellFormed_iff
    (show bootconfigTrailerSize ≤ (List.replicate 40 0).length by decide) proper_threeWays ()
  refine ⟨b, hnew, hiff.mpr ?_⟩
  obtain rfl := Except.ok.inj ((Eq.refl (BootConfigBuilder.new (List.replicate 40 0))).symm.trans hnew)
  exact ⟨fun _ => by decide, show 4 + 4 < 2 ^ 32 by decide, .inl (by decide +kernel), trivial⟩

def scribble : Reader Unit where
  run _ := fun s => (err .notFound, (s.1, match s.2 with
    | [] => []
    | _ :: rest => 1 :: rest))
  length_run := by
    rintro _ ⟨_, out⟩
    cases out with
    | nil => rfl
    | cons _ _ => rfl

/-- It fails, and the section is gone. -/
theorem bootconfig_lost_trailer :
    ∃ b b', BootConfigBuilder.new (List.replicate 40 0) = .ok b ∧
      BootConfigBuilder.addWith scribble ((), b) = (err .notFound, ((), b')) ∧ b'.configBytes ≠ b.configBytes :=
  ⟨_, _, rfl, rfl, by decide⟩

end Runs

end Gbl.BootParams
