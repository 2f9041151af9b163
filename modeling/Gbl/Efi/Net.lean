import Gbl.Error

/-!
# Transmit frames of the EFI network device (`efi/src/net.rs`)

The device has a pool of frames.
-/

namespace Gbl.Efi

open Lib Lib.Exec

def ethernetFrameSize : Nat := 1536

structure SimpleNetwork (φ : Type) where
  getStatus : φ → Except Error Nat × φ
  transmit : Nat → Nat → φ → Except Error Unit × φ
  shutdown : φ → Except Error Unit × φ
  start : φ → Except Error Unit × φ
  initializeNetwork : Nat → Nat → φ → Except Error Unit × φ
  reset : Bool → φ → Except Error Unit × φ
  newTimeout : φ → Except Error Unit × φ
  checkTimeout : φ → Except Error Bool × φ
  held : φ → List Nat
  getStatus_held : ∀ w p, (getStatus w).1 = .ok p → p ≠ 0 → p ∈ held w ∧ p ∉ held (getStatus w).2
  held_getStatus : ∀ w q, q ∈ held (getStatus w).2 → q ∈ held w
  held_transmit : ∀ p n w q, q ∈ held (transmit p n w).2 → q ∈ held w ∨ q = p
  held_shutdown : ∀ w, (shutdown w).1 = .ok () ∨ (shutdown w).1 = .error .notStarted → held (shutdown w).2 = []
  held_of_shutdown : ∀ w q, q ∈ held (shutdown w).2 → q ∈ held w
  held_start : ∀ w q, q ∈ held (start w).2 → q ∈ held w
  held_initializeNetwork : ∀ rx tx w q, q ∈ held (initializeNetwork rx tx w).2 → q ∈ held w
  held_reset : ∀ b w q, q ∈ held (reset b w).2 → q ∈ held w
  held_newTimeout : ∀ w q, q ∈ held (newTimeout w).2 → q ∈ held w
  held_checkTimeout : ∀ w q, q ∈ held (checkTimeout w).2 → q ∈ held w

structure TxFrames where
  frames : List Nat
  nodup : frames.Nodup
  ne_zero : ∀ p ∈ frames, p ≠ 0

structure NetState (φ : Type) where
  firmware : φ
  curr : Nat
  handed : List (Nat × List Nat)
  freed : List (Nat × List Nat)

section Model

variable {φ : Type} (N : SimpleNetwork φ) (T : TxFrames)

def tryGetBuffer (s : NetState φ) : Option Nat × NetState φ :=
  match N.getStatus s.firmware with
  | (.ok p, w) => if p ∈ T.frames then (some p, { s with firmware := w }) else takeNext { s with firmware := w }
  | (.error _, w) => takeNext { s with firmware := w }
where
  takeNext (s : NetState φ) : Option Nat × NetState φ :=
    match T.frames[s.curr]? with
    | some p => (some p, { s with curr := s.curr + 1 })
    | none => (none, s)

def pollBuffer : Nat → NetState φ → Res Error (Option Nat) × NetState φ
  | 0, s => (.error .hang, s)
  | fuel + 1, s =>
    match N.checkTimeout s.firmware with
    | (.error e, w) => (.error (.err e), { s with firmware := w })
    | (.ok true, w) => (.ok none, { s with firmware := w })
    | (.ok false, w) =>
      match tryGetBuffer N T { s with firmware := w } with
      | (some p, s) => (.ok (some p), s)
      | (none, s) => pollBuffer fuel s

def loopWithTimeout (fuel : Nat) (s : NetState φ) : Res Error (Option Nat) × NetState φ :=
  match N.newTimeout s.firmware with
  | (.error e, w) => (.error (.err e), { s with firmware := w })
  | (.ok _, w) => pollBuffer N T fuel { s with firmware := w }

def resetSimpleNetwork (w : φ) : Except Error Unit × φ :=
  match N.shutdown w with
  | (.error e, w) => if e ≠ .notStarted then (.error e, w) else startUp w
  | (.ok _, w) => startUp w
where
  startUp (w : φ) : Except Error Unit × φ :=
    match N.start w with
    | (.error e, w) => if e ≠ .alreadyStarted then (.error e, w) else ready w
    | (.ok _, w) => ready w
  ready (w : φ) : Except Error Unit × φ :=
    match N.initializeNetwork 0 0 w with
    | (.error e, w) => (.error e, w)
    | (.ok _, w) => N.reset true w

def consume (len : Nat) : Nat → NetState φ → Res Error Unit × NetState φ
  | 0, s => (.error .hang, s)
  | fuel + 1, s =>
    match loopWithTimeout N T fuel s with
    | (.ok (some p), s) =>
      if len ≤ ethernetFrameSize then
        (.ok (), { s with
          firmware := (N.transmit p len s.firmware).2, handed := s.handed ++ [(p, N.held s.firmware)] })
      else (panic, s)
    | (.ok none, s) =>
      match resetSimpleNetwork N s.firmware with
      | (.ok _, w) => consume len fuel { s with firmware := w, curr := 0 }
      | (.error _, w) => (panic, { s with firmware := w })
    | (.error .panic, s) => (panic, s)
    | (.error .hang, s) => (.error .hang, s)
    | (.error (.err _), s) => consume len fuel s

def consumeAll (fuel : Nat) : List Nat → NetState φ → Res Error Unit × NetState φ
  | [], s => (.ok (), s)
  | len :: lens, s =>
    match consume N T len fuel s with
    | (.ok _, s) => consumeAll fuel lens s
    | (.error e, s) => (.error e, s)

def dropDevice (s : NetState φ) : Res Error Unit × NetState φ :=
  match N.shutdown s.firmware with
  | (.error e, w) =>
    if e = .notStarted then (.ok (), free { s with firmware := w }) else (panic, { s with firmware := w })
  | (.ok _, w) => (.ok (), free { s with firmware := w })
where
  free (s : NetState φ) : NetState φ :=
    { s with freed := s.freed ++ T.frames.map fun p => (p, N.held s.firmware) }

def session (fuel : Nat) (lens : List Nat) (s : NetState φ) : Res Error Unit × NetState φ :=
  match consumeAll N T fuel lens s with
  | (.ok _, s) => dropDevice N T s
  | (.error e, s) => (.error e, s)

end Model

variable {φ : Type} {N : SimpleNetwork φ} {T : TxFrames} {s s' : NetState φ} {w : φ} {p : Nat}

/-- What the firmware holds of the pool has been taken from it: it is before `curr`. -/
structure Owned (N : SimpleNetwork φ) (T : TxFrames) (s : NetState φ) : Prop where
  taken : ∀ p ∈ N.held s.firmware, p ∈ T.frames → p ∈ T.frames.take s.curr
  handed : ∀ x ∈ s.handed, x.1 ∈ T.frames ∧ x.1 ∉ x.2
  freed : ∀ x ∈ s.freed, x.1 ∉ x.2

structure Free (N : SimpleNetwork φ) (T : TxFrames) (s : NetState φ) (p : Nat) : Prop where
  mem : p ∈ T.frames.take s.curr
  not_held : p ∉ N.held s.firmware

theorem Owned.firmware (h : Owned N T s) (hw : ∀ q ∈ N.held w, q ∈ N.held s.firmware) :
    Owned N T { s with firmware := w } :=
  ⟨fun p hp => h.taken p (hw p hp), h.handed, h.freed⟩

theorem Owned.takeNext (h : Owned N T s) : Owned N T (tryGetBuffer.takeNext T s).2 ∧
    ∀ p, (tryGetBuffer.takeNext T s).1 = some p → Free N T (tryGetBuffer.takeNext T s).2 p := by
  unfold tryGetBuffer.takeNext
  split
  · next p hp =>
    obtain ⟨hlt, hget⟩ := List.getElem?_eq_some_iff.1 hp
    have htake : T.frames.take (s.curr + 1) = T.frames.take s.curr ++ [p] := by
      rw [List.take_succ_eq_append_getElem hlt, hget]
    refine ⟨⟨fun q hq hmem => ?_, h.handed, h.freed⟩, ?_⟩
    · show q ∈ T.frames.take (s.curr + 1)
      rw [htake]
      exact List.mem_append_left _ (h.taken q hq hmem)
    · rintro q ⟨⟩
      refine ⟨?_, fun hheld => ?_⟩
      · show p ∈ T.frames.take (s.curr + 1)
        rw [htake]
        exact List.mem_append_right _ (List.mem_singleton_self p)
      -- a frame that is taken now has not been taken before
      · have hbefore := h.taken p hheld (hget ▸ List.getElem_mem hlt)
        have hnodup := T.nodup.sublist (List.take_sublist (s.curr + 1) T.frames)
        rw [htake] at hnodup
        exact (List.nodup_append.1 hnodup).2.2 p hbefore p (List.mem_singleton_self p) rfl
  · exact ⟨h, fun p hp => (by cases hp)⟩

theorem Owned.tryGetBuffer (h : Owned N T s) : Owned N T (tryGetBuffer N T s).2 ∧
    ∀ p, (tryGetBuffer N T s).1 = some p → Free N T (tryGetBuffer N T s).2 p := by
  have hheld := N.held_getStatus s.firmware
  have hstatus := N.getStatus_held s.firmware
  unfold Efi.tryGetBuffer
  rcases hcall : N.getStatus s.firmware with ⟨r, w⟩
  rw [hcall] at hheld hstatus
  have hw : Owned N T { s with firmware := w } := h.firmware hheld
  cases r with
  | error e => exact hw.takeNext
  | ok p =>
    by_cases hp : p ∈ T.frames
    · simp only [if_pos hp]
      refine ⟨hw, ?_⟩
      rintro q ⟨⟩
      obtain ⟨hbefore, hafter⟩ := hstatus p rfl (T.ne_zero p hp)
      exact ⟨h.taken p hbefore hp, hafter⟩
    · simp only [if_neg hp]
      exact hw.takeNext

theorem Owned.pollBuffer (h : Owned N T s) (fuel : Nat) : Owned N T (pollBuffer N T fuel s).2 ∧
    ∀ p, (pollBuffer N T fuel s).1 = .ok (some p) → Free N T (pollBuffer N T fuel s).2 p := by
  induction fuel generalizing s with
  | zero => exact ⟨h, fun p hp => (by cases hp)⟩
  | succ fuel ih =>
    have hheld := N.held_checkTimeout s.firmware
    unfold Efi.pollBuffer
    rcases hcall : N.checkTimeout s.firmware with ⟨r, w⟩
    rw [hcall] at hheld
    have hw : Owned N T { s with firmware := w } := h.firmware hheld
    rcases r with e | _ | _
    · exact ⟨hw, fun p hp => (by cases hp)⟩
    · obtain ⟨h₁, hfree⟩ := hw.tryGetBuffer
      rcases htry : Efi.tryGetBuffer N T { s with firmware := w } with ⟨o, s₁⟩
      rw [htry] at h₁ hfree
      simp only [htry]
      cases o with
      | none => exact ih h₁
      | some p =>
        refine ⟨h₁, ?_⟩
        rintro q ⟨⟩
        exact hfree p rfl
    · exact ⟨hw, fun p hp => (by cases hp)⟩

theorem Owned.loopWithTimeout (h : Owned N T s) (fuel : Nat) : Owned N T (loopWithTimeout N T fuel s).2 ∧
    ∀ p, (loopWithTimeout N T fuel s).1 = .ok (some p) → Free N T (loopWithTimeout N T fuel s).2 p := by
  have hheld := N.held_newTimeout s.firmware
  unfold Efi.loopWithTimeout
  rcases hcall : N.newTimeout s.firmware with ⟨r, w⟩
  rw [hcall] at hheld
  have hw : Owned N T { s with firmware := w } := h.firmware hheld
  cases r with
  | error e => exact ⟨hw, fun p hp => (by cases hp)⟩
  | ok u => exact hw.pollBuffer fuel

theorem held_ready {q : Nat} (h : q ∈ N.held (resetSimpleNetwork.ready N w).2) : q ∈ N.held w := by
  have hheld := N.held_initializeNetwork 0 0 w q
  unfold resetSimpleNetwork.ready at h
  rcases hcall : N.initializeNetwork 0 0 w with ⟨r, w'⟩
  rw [hcall] at hheld
  simp only [hcall] at h
  cases r with
  | ok u => exact hheld (N.held_reset true w' q h)
  | error e => exact hheld h

theorem held_startUp {q : Nat} (h : q ∈ N.held (resetSimpleNetwork.startUp N w).2) : q ∈ N.held w := by
  have hheld := N.held_start w q
  unfold resetSimpleNetwork.startUp at h
  rcases hcall : N.start w with ⟨r, w'⟩
  rw [hcall] at hheld
  simp only [hcall] at h
  cases r with
  | ok u => exact hheld (held_ready h)
  | error e =>
    simp only at h
    split at h
    · exact hheld h
    · exact hheld (held_ready h)

theorem held_resetSimpleNetwork (h : (resetSimpleNetwork N w).1 = .ok ()) (q : Nat) :
    q ∉ N.held (resetSimpleNetwork N w).2 := by
  have hheld := N.held_shutdown w
  unfold resetSimpleNetwork at h ⊢
  rcases hcall : N.shutdown w with ⟨r, w'⟩
  rw [hcall] at hheld
  simp only [hcall] at h ⊢
  intro hq
  rcases r with e | u
  · simp only at h hq
    split at hq
    · next he =>
      rw [if_pos he] at h
      cases h
    · next he =>
      have hmem := held_startUp hq
      rw [hheld (.inr (by rw [not_not.1 he]))] at hmem
      cases hmem
  · have hmem := held_startUp hq
    rw [hheld (.inl rfl)] at hmem
    cases hmem

theorem held_of_resetSimpleNetwork {q : Nat} (h : q ∈ N.held (resetSimpleNetwork N w).2) : q ∈ N.held w := by
  have hheld := N.held_of_shutdown w q
  unfold resetSimpleNetwork at h
  rcases hcall : N.shutdown w with ⟨r, w'⟩
  rw [hcall] at hheld
  simp only [hcall] at h
  cases r with
  | ok u => exact hheld (held_startUp h)
  | error e =>
    simp only at h
    split at h
    · exact hheld h
    · exact hheld (held_startUp h)

theorem Owned.consume (h : Owned N T s) (len fuel : Nat) : Owned N T (consume N T len fuel s).2 := by
  induction fuel generalizing s with
  | zero => exact h
  | succ fuel ih =>
    obtain ⟨h₁, hfree⟩ := h.loopWithTimeout fuel
    unfold Efi.consume
    rcases hloop : Efi.loopWithTimeout N T fuel s with ⟨r, s₁⟩
    rw [hloop] at h₁ hfree
    rcases r with (e | _ | _) | (_ | p)
    · exact ih h₁
    · exact h₁
    · exact h₁
    · simp only
      rcases hreset : resetSimpleNetwork N s₁.firmware with ⟨r, w⟩
      have hnone := held_resetSimpleNetwork (N := N) (w := s₁.firmware)
      have hheld := fun q => held_of_resetSimpleNetwork (N := N) (w := s₁.firmware) (q := q)
      rw [hreset] at hnone hheld
      cases r with
      | ok u => exact ih ⟨fun q hq => absurd hq (hnone rfl q), h₁.handed, h₁.freed⟩
      | error e => exact h₁.firmware hheld
    · obtain ⟨hmem, hnot⟩ := hfree p rfl
      simp only
      split
      · refine ⟨fun q hq hin => ?_, fun x hx => ?_, h₁.freed⟩
        · rcases N.held_transmit p len s₁.firmware q hq with hq | rfl
          · exact h₁.taken q hq hin
          · exact hmem
        · rcases List.mem_append.1 hx with hx | hx
          · exact h₁.handed x hx
          · cases List.mem_singleton.1 hx
            exact ⟨List.mem_of_mem_take hmem, hnot⟩
      · exact h₁

theorem Owned.consumeAll (h : Owned N T s) (fuel : Nat) (lens : List Nat) :
    Owned N T (consumeAll N T fuel lens s).2 := by
  induction lens generalizing s with
  | nil => exact h
  | cons len lens ih =>
    have h₁ := h.consume len fuel
    unfold Efi.consumeAll
    rcases hrun : Efi.consume N T len fuel s with ⟨r, s₁⟩
    rw [hrun] at h₁
    cases r with
    | ok u => exact ih h₁
    | error e => exact h₁

theorem Owned.free (h : Owned N T s) (hnone : N.held s.firmware = []) : Owned N T (dropDevice.free N T s) := by
  refine ⟨fun q hq => ?_, h.handed, fun x hx => ?_⟩
  · rw [show N.held (dropDevice.free N T s).firmware = [] from hnone] at hq
    cases hq
  · rcases List.mem_append.1 hx with hx | hx
    · exact h.freed x hx
    · obtain ⟨p, -, rfl⟩ := List.mem_map.1 hx
      simp only [hnone]
      exact List.not_mem_nil

theorem Owned.dropDevice (h : Owned N T s) : Owned N T (dropDevice N T s).2 := by
  have hnone := N.held_shutdown s.firmware
  have hheld := N.held_of_shutdown s.firmware
  unfold Efi.dropDevice
  rcases hcall : N.shutdown s.firmware with ⟨r, w⟩
  rw [hcall] at hnone hheld
  have hw : Owned N T { s with firmware := w } := h.firmware hheld
  cases r with
  | ok u => exact hw.free (hnone (.inl rfl))
  | error e =>
    simp only
    split
    · next he => exact hw.free (hnone (.inr (by rw [he])))
    · exact hw

/-- **No frame is touched while the firmware owns it.** Whatever the firmware answers, a frame that is handed out is one
of the pool and is not held at that time, and none is freed while it is held. -/
theorem frames_not_held (N : SimpleNetwork φ) (T : TxFrames) (w : φ) (hnew : ∀ p ∈ T.frames, p ∉ N.held w) (fuel : Nat)
    (lens : List Nat) :
    (∀ x ∈ (session N T fuel lens ⟨w, 0, [], []⟩).2.handed, x.1 ∈ T.frames ∧ x.1 ∉ x.2) ∧
      ∀ x ∈ (session N T fuel lens ⟨w, 0, [], []⟩).2.freed, x.1 ∉ x.2 := by
  have hinit : Owned N T ⟨w, 0, [], []⟩ := ⟨fun p hp hin => absurd hp (hnew p hin), fun x hx => (by cases hx),
    fun x hx => (by cases hx)⟩
  have h₁ := hinit.consumeAll fuel lens
  have h : Owned N T (session N T fuel lens ⟨w, 0, [], []⟩).2 := by
    unfold session
    rcases hrun : Efi.consumeAll N T fuel lens ⟨w, 0, [], []⟩ with ⟨r, s₁⟩
    rw [hrun] at h₁
    cases r with
    | ok u => exact h₁.dropDevice
    | error e => exact h₁
  exact ⟨h.handed, h.freed⟩

def fifoNetwork : SimpleNetwork (List Nat) where
  getStatus w := match w with
    | [] => (.ok 0, [])
    | p :: w => (.ok p, w.filter (· ≠ p))
  transmit p _ w := (.ok (), w ++ [p])
  shutdown _ := (.ok (), [])
  start w := (.ok (), w)
  initializeNetwork _ _ w := (.ok (), w)
  reset _ w := (.ok (), w)
  newTimeout w := (.ok (), w)
  checkTimeout w := (.ok false, w)
  held w := w
  getStatus_held w p h hp := by
    cases w with
    | nil =>
      cases h
      exact absurd rfl hp
    | cons q w =>
      cases h
      simp
  held_getStatus w q h := by
    cases w with
    | nil => exact h
    | cons p w => exact List.mem_cons_of_mem p (List.mem_filter.1 h).1
  held_transmit p _ w q h := by simpa using h
  held_shutdown _ _ := rfl
  held_of_shutdown _ q h := by cases h
  held_start _ _ h := h
  held_initializeNetwork _ _ _ _ h := h
  held_reset _ _ _ h := h
  held_newTimeout _ _ h := h
  held_checkTimeout _ _ h := h

theorem nodup_frames : [8, 16].Nodup := by decide

theorem frames_ne_zero : ∀ p ∈ [8, 16], p ≠ 0 := by decide

def twoFrames : TxFrames := ⟨[8, 16], nodup_frames, frames_ne_zero⟩

theorem frames_not_held_two :
    (session fifoNetwork twoFrames 4 [60, 60, 60] ⟨[], 0, [], []⟩).2.handed = [(8, []), (8, []), (8, [])] ∧
      ∀ x ∈ (session fifoNetwork twoFrames 4 [60, 60, 60] ⟨[], 0, [], []⟩).2.freed, x.1 ∉ x.2 :=
  ⟨by decide, (frames_not_held fifoNetwork twoFrames [] (fun _ _ => List.not_mem_nil) 4 [60, 60, 60]).2⟩

end Gbl.Efi
