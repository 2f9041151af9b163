import Gbl.Error
import Gbl.Lib.Extent

/-!
# Image buffers the firmware hands out (`libefi/src/protocol/gbl_efi_image_loading.rs`)

`get_buffer` asks the firmware for the memory of an image and turns the answer into a slice of static memory.
-/

namespace Gbl.Efi

open Lib Lib.Exec

structure GblEfiImageBuffer where
  memory : Nat
  sizeBytes : Nat
  deriving DecidableEq, Repr

def GblEfiImageBuffer.extent (b : GblEfiImageBuffer) : Extent := ⟨b.memory, b.sizeBytes⟩

structure EfiImageBuffer where
  buffer : Option Extent
  deriving DecidableEq, Repr

inductive EfiImageBufferInfo where
  | buffer (b : EfiImageBuffer)
  | allocSize (size : Nat)
  deriving DecidableEq, Repr

def maxArraySize : Nat := 100

def swapRemove (l : List Nat) (pos : Nat) : List Nat :=
  match l.getLast? with
  | none => l
  | some last => (l.set pos last).dropLast

namespace EfiImageBuffer

def new (b : GblEfiImageBuffer) : Exec Error (List Nat) EfiImageBuffer := do
  lift (ensure (b.memory ≠ 0) .invalidInput)
  let returnedBuffers ← get
  lift (ensure (b.memory ∉ returnedBuffers) .alreadyStarted)
  assert (decide (returnedBuffers.length < maxArraySize))
  modify (· ++ [b.memory])
  pure ⟨some b.extent⟩

def take (b : EfiImageBuffer) : Result (Extent × EfiImageBuffer) :=
  match b.buffer with
  | none => panic
  | some e => .ok (e, ⟨none⟩)

def release (address : Nat) : Exec Error (List Nat) Unit := do
  let returnedBuffers ← get
  match returnedBuffers.idxOf? address with
  | none => lift panic
  | some pos => modify (swapRemove · pos)

def drop (b : EfiImageBuffer) : Exec Error (List Nat) Unit :=
  match b.buffer with
  | none => pure ()
  | some e => release e.start

end EfiImageBuffer

def getBuffer (imageSize : Nat) (answer : Except Error GblEfiImageBuffer) :
    Exec Error (List Nat) EfiImageBufferInfo := do
  let b ← lift (Res.ofExcept answer)
  lift (ensure (imageSize ≤ b.sizeBytes) (.bufferTooSmall (some imageSize)))
  if b.memory = 0 then
    pure (.allocSize b.sizeBytes)
  else do
    let v ← EfiImageBuffer.new b
    pure (.buffer v)

/-! ## The program that uses them -/

structure Images where
  returned : List Nat
  handles : List EfiImageBuffer
  taken : List Extent
  deriving DecidableEq, Repr

def Images.initial : Images := ⟨[], [], []⟩

def Images.live (s : Images) : List Extent := s.handles.filterMap (·.buffer) ++ s.taken

inductive Event where
  | getBuffer (imageSize : Nat) (answer : Except Error GblEfiImageBuffer)
  | take (i : Nat)
  | drop (i : Nat)

def onReturned {α : Type} (m : Exec Error (List Nat) α) : Exec Error Images α :=
  zoom (·.returned) (fun s r => { s with returned := r }) m

def request (imageSize : Nat) (answer : Except Error GblEfiImageBuffer) : Exec Error Images Unit := do
  let info ← onReturned (getBuffer imageSize answer)
  match info with
  | .buffer v => modify fun s => { s with handles := s.handles ++ [v] }
  | .allocSize _ => pure ()

def takeAt (i : Nat) : Exec Error Images Unit := do
  let s ← get
  match s.handles[i]? with
  | none => pure ()
  | some b => do
    let (e, b) ← lift b.take
    modify fun s => { s with handles := s.handles.set i b, taken := s.taken ++ [e] }

def dropAt (i : Nat) : Exec Error Images Unit := do
  let s ← get
  match s.handles[i]? with
  | none => pure ()
  | some b => do
    onReturned b.drop
    modify fun s => { s with handles := s.handles.eraseIdx i }

def Event.run : Event → Exec Error Images Unit
  | .getBuffer imageSize answer => request imageSize answer
  | .take i => takeAt i
  | .drop i => dropAt i

/-! ## Runs of the operations -/

variable {s : Images} {b : GblEfiImageBuffer} {e : Extent} {i imageSize : Nat}

theorem swapRemove_perm {l : List Nat} {pos : Nat} (h : pos < l.length) : (l[pos] :: swapRemove l pos).Perm l := by
  have hne : l ≠ [] := List.ne_nil_of_length_pos (Nat.zero_lt_of_lt h)
  obtain ⟨init, last, rfl⟩ := List.eq_nil_or_concat' l |>.resolve_left hne
  have hlast : swapRemove (init ++ [last]) pos = ((init ++ [last]).set pos last).dropLast := by
    simp [swapRemove]
  rw [hlast]
  by_cases hpos : pos < init.length
  · rw [List.set_append_left _ _ hpos, List.dropLast_concat, List.getElem_append_left hpos]
    -- The removed element, the moved one and the rest.
    calc (init[pos] :: init.set pos last).Perm (init[pos] :: last :: init.eraseIdx pos) :=
          (List.set_perm_cons_eraseIdx hpos last).cons _
      _ |>.Perm (last :: init[pos] :: init.eraseIdx pos) := .swap ..
      _ |>.Perm (last :: init) := (List.getElem_cons_eraseIdx_perm hpos).cons _
      _ |>.Perm (init ++ [last]) := (List.perm_append_singleton last init).symm
  · obtain rfl : pos = init.length := by
      simp only [List.length_append, List.length_singleton] at h
      omega
    rw [List.set_append_right _ _ (Nat.le_refl _), List.getElem_concat_length rfl]
    simp only [Nat.sub_self, List.set_cons_zero, List.dropLast_concat]
    exact (List.perm_append_singleton last init).symm

theorem new_run (hnull : b.memory ≠ 0) (l : List Nat) : EfiImageBuffer.new b l =
      if b.memory ∈ l then (err .alreadyStarted, l)
      else if l.length < maxArraySize then (.ok ⟨some b.extent⟩, l ++ [b.memory])
      else (panic, l) := by
  unfold EfiImageBuffer.new
  rw [bind_run_ok (lift_run_ok ((ensure_eq_ok (u := ())).2 hnull) l), bind_run_ok (get_run l)]
  split
  · next hin => exact bind_run_error (by simp [ensure, hin])
  · next hin =>
    rw [bind_run_ok (lift_run_ok ((ensure_eq_ok (u := ())).2 hin) l)]
    split
    · next hlen => exact assert_bind_run_true (decide_eq_true hlen)
    · next hlen => exact assert_bind_run_false (decide_eq_false hlen)

theorem release_run {l : List Nat} {address : Nat} (h : address ∈ l) :
    ∃ l', EfiImageBuffer.release address l = (.ok (), l') ∧ (address :: l').Perm l := by
  have hlt : l.idxOf address < l.length := List.idxOf_lt_length_of_mem h
  refine ⟨swapRemove l (l.idxOf address), ?_, ?_⟩
  · have hidx : l.idxOf? address = some (l.idxOf address) := by
      rw [List.idxOf?, List.findIdx?_eq_some_iff_findIdx_eq]
      exact ⟨hlt, rfl⟩
    unfold EfiImageBuffer.release
    rw [bind_run_ok (get_run l), hidx]
    rfl
  · have hat := swapRemove_perm hlt
    rwa [List.getElem_idxOf hlt] at hat

theorem onReturned_run {α : Type} {m : Exec Error (List Nat) α} {r : Result α} {l : List Nat}
    (h : m s.returned = (r, l)) : onReturned m s = (r, { s with returned := l }) := by
  show ((m s.returned).1, { s with returned := (m s.returned).2 }) = _
  rw [h]

theorem getBuffer_small (h : ¬ imageSize ≤ b.sizeBytes) (l : List Nat) :
    getBuffer imageSize (.ok b) l = (err (.bufferTooSmall (some imageSize)), l) := by
  unfold getBuffer
  rw [bind_run_ok (lift_run_ok (Res.ofExcept_eq_ok.2 rfl) l)]
  exact bind_run_error (by simp [ensure, h])

theorem getBuffer_null (h : imageSize ≤ b.sizeBytes) (hnull : b.memory = 0) (l : List Nat) :
    getBuffer imageSize (.ok b) l = (.ok (.allocSize b.sizeBytes), l) := by
  unfold getBuffer
  rw [bind_run_ok (lift_run_ok (Res.ofExcept_eq_ok.2 rfl) l),
    bind_run_ok (lift_run_ok ((ensure_eq_ok (u := ())).2 h) l),
    if_pos hnull]
  rfl

theorem getBuffer_new (h : imageSize ≤ b.sizeBytes) (hnull : b.memory ≠ 0) (l : List Nat) :
    getBuffer imageSize (.ok b) l = (EfiImageBuffer.new b >>= fun v => pure (.buffer v)) l := by
  unfold getBuffer
  rw [bind_run_ok (lift_run_ok (Res.ofExcept_eq_ok.2 rfl) l),
    bind_run_ok (lift_run_ok ((ensure_eq_ok (u := ())).2 h) l),
    if_neg hnull]

theorem run_getBuffer_error (x : Error) : (Event.getBuffer imageSize (.error x)).run s = (err x, s) := rfl

theorem run_getBuffer_small (h : ¬ imageSize ≤ b.sizeBytes) :
    (Event.getBuffer imageSize (.ok b)).run s = (err (.bufferTooSmall (some imageSize)), s) :=
  bind_run_error (onReturned_run (getBuffer_small h s.returned))

theorem run_getBuffer_null (h : imageSize ≤ b.sizeBytes) (hnull : b.memory = 0) :
    (Event.getBuffer imageSize (.ok b)).run s = (.ok (), s) :=
  bind_run_ok (onReturned_run (getBuffer_null h hnull s.returned))

theorem run_getBuffer_offered (h : imageSize ≤ b.sizeBytes) (hnull : b.memory ≠ 0) :
    (Event.getBuffer imageSize (.ok b)).run s =
      if b.memory ∈ s.returned then (err .alreadyStarted, s)
      else if s.returned.length < maxArraySize then
        (.ok (), { s with returned := s.returned ++ [b.memory], handles := s.handles ++ [⟨some b.extent⟩] })
      else (panic, s) := by
  have hget := getBuffer_new h hnull s.returned
  have hnew := new_run hnull s.returned
  split
  · next hin =>
    rw [if_pos hin] at hnew
    rw [bind_run_error hnew] at hget
    exact bind_run_error (onReturned_run hget)
  · next hin =>
    rw [if_neg hin] at hnew
    split
    · next hlen =>
      rw [if_pos hlen] at hnew
      rw [bind_run_ok hnew] at hget
      exact bind_run_ok (onReturned_run hget)
    · next hlen =>
      rw [if_neg hlen] at hnew
      rw [bind_run_error hnew] at hget
      exact bind_run_error (onReturned_run hget)

theorem run_take_none (h : s.handles[i]? = none) : (Event.take i).run s = (.ok (), s) := by
  show takeAt i s = _
  unfold takeAt
  rw [bind_run_ok (get_run s), h]
  rfl

theorem run_take_empty (h : s.handles[i]? = some ⟨none⟩) : (Event.take i).run s = (panic, s) := by
  show takeAt i s = _
  unfold takeAt
  rw [bind_run_ok (get_run s), h]
  rfl

theorem run_take_some (h : s.handles[i]? = some ⟨some e⟩) : (Event.take i).run s =
    (.ok (), { s with handles := s.handles.set i ⟨none⟩, taken := s.taken ++ [e] }) := by
  show takeAt i s = _
  unfold takeAt
  rw [bind_run_ok (get_run s), h]
  rfl

theorem run_drop_none (h : s.handles[i]? = none) : (Event.drop i).run s = (.ok (), s) := by
  show dropAt i s = _
  unfold dropAt
  rw [bind_run_ok (get_run s), h]
  rfl

theorem run_drop_empty (h : s.handles[i]? = some ⟨none⟩) :
    (Event.drop i).run s = (.ok (), { s with handles := s.handles.eraseIdx i }) := by
  show dropAt i s = _
  unfold dropAt
  rw [bind_run_ok (get_run s), h]
  rfl

theorem run_drop_some (h : s.handles[i]? = some ⟨some e⟩) (hin : e.start ∈ s.returned) :
    ∃ l, (e.start :: l).Perm s.returned ∧
      (Event.drop i).run s = (.ok (), { s with returned := l, handles := s.handles.eraseIdx i }) := by
  obtain ⟨l, hrun, hperm⟩ := release_run hin
  refine ⟨l, hperm, ?_⟩
  show dropAt i s = _
  unfold dropAt
  rw [bind_run_ok (get_run s), h]
  exact bind_run_ok (onReturned_run (m := EfiImageBuffer.release e.start) hrun)

/-! ## What is live, and what the global list knows of it -/

structure Images.Tracked (s : Images) : Prop where
  perm : s.returned.Perm (s.live.map Extent.start)
  nodup : s.returned.Nodup

theorem Images.Tracked.mem_iff (h : s.Tracked) {a : Nat} : a ∈ s.returned ↔ ∃ e ∈ s.live, e.start = a := by
  rw [h.perm.mem_iff, List.mem_map]

theorem Images.Tracked.length_eq (h : s.Tracked) : s.returned.length = s.live.length := by
  rw [h.perm.length_eq, List.length_map]

theorem Images.initial_tracked : Images.initial.Tracked := ⟨.nil, .nil⟩

theorem filterMap_split {l : List EfiImageBuffer} {o : EfiImageBuffer} (h : l[i]? = some o) :
    (l.filterMap (·.buffer)).Perm ((o :: l.eraseIdx i).filterMap (·.buffer)) := by
  obtain ⟨hlt, rfl⟩ := List.getElem?_eq_some_iff.1 h
  exact (List.getElem_cons_eraseIdx_perm hlt).symm.filterMap _

theorem live_split (h : s.handles[i]? = some ⟨some e⟩) :
    s.live.Perm (e :: ((s.handles.eraseIdx i).filterMap (·.buffer) ++ s.taken)) :=
  (filterMap_split h).append_right _

theorem live_split_none (h : s.handles[i]? = some ⟨none⟩) :
    s.live.Perm ((s.handles.eraseIdx i).filterMap (·.buffer) ++ s.taken) :=
  (filterMap_split h).append_right _

theorem live_take (h : s.handles[i]? = some ⟨some e⟩) :
    (Images.live { s with handles := s.handles.set i ⟨none⟩, taken := s.taken ++ [e] }).Perm s.live := by
  obtain ⟨hlt, -⟩ := List.getElem?_eq_some_iff.1 h
  have hset : ((s.handles.set i ⟨none⟩).filterMap (·.buffer)).Perm ((s.handles.eraseIdx i).filterMap (·.buffer)) :=
    (List.set_perm_cons_eraseIdx hlt _).filterMap _
  calc ((s.handles.set i ⟨none⟩).filterMap (·.buffer) ++ (s.taken ++ [e])).Perm
        ((s.handles.eraseIdx i).filterMap (·.buffer) ++ (e :: s.taken)) :=
        hset.append (List.perm_append_singleton e s.taken)
    _ |>.Perm (e :: ((s.handles.eraseIdx i).filterMap (·.buffer) ++ s.taken)) := List.perm_middle
    _ |>.Perm s.live := (live_split h).symm

theorem live_new (s : Images) (l : List Nat) (e : Extent) :
    (Images.live { s with returned := l, handles := s.handles ++ [⟨some e⟩] }).Perm (e :: s.live) := by
  show ((s.handles ++ [EfiImageBuffer.mk (some e)]).filterMap EfiImageBuffer.buffer ++ s.taken).Perm _
  rw [List.filterMap_append, List.append_assoc]
  exact List.perm_middle

/-! ## One call -/

def Event.Overlaps (s : Images) : Event → Prop
  | .getBuffer _ (.ok b) => b.memory ≠ 0 ∧ ∃ e ∈ s.live, ¬ e.Disjoint b.extent
  | _ => False

structure Event.Safe (s : Images) (ev : Event) : Prop where
  returns : (ev.run s).1.Returns
  apart : (ev.run s).2.live.Pairwise Extent.Disjoint
  rejects : ev.Overlaps s → (ev.run s).1.IsErr

def Event.Careful (s : Images) : Event → Prop
  | .getBuffer imageSize (.ok b) => imageSize ≤ b.sizeBytes → b.memory ≠ 0 →
      (∀ e ∈ s.live, e.start ≠ b.memory) →
      (∀ e ∈ s.live, e.Disjoint b.extent) ∧ s.live.length < maxArraySize
  | .getBuffer _ (.error _) => True
  | .take i => s.handles[i]? ≠ some ⟨none⟩
  | .drop _ => True

theorem safe_of_run {ev : Event} {r : Result Unit} {s' : Images} (hrun : ev.run s = (r, s'))
    (hr : r.Returns) (hlive : s'.live.Pairwise Extent.Disjoint) (hover : ev.Overlaps s → r.IsErr) :
    ev.Safe s := by
  refine ⟨?_, ?_, ?_⟩
  · rwa [hrun]
  · rwa [hrun]
  · rwa [hrun]

theorem safe_offered_iff (ht : s.Tracked) (hs : s.live.Pairwise Extent.Disjoint)
    (h : imageSize ≤ b.sizeBytes) (hnull : b.memory ≠ 0) (hin : b.memory ∉ s.returned) :
    (Event.getBuffer imageSize (.ok b)).Safe s ↔
      (∀ e ∈ s.live, e.Disjoint b.extent) ∧ s.live.length < maxArraySize := by
  have hrun := run_getBuffer_offered (s := s) h hnull
  rw [if_neg hin, ht.length_eq] at hrun
  by_cases hlen : s.live.length < maxArraySize
  · rw [if_pos hlen] at hrun
    have hlive := live_new s (s.returned ++ [b.memory]) b.extent
    constructor
    · intro hsafe
      refine ⟨fun e he => ?_, hlen⟩
      have hapart := hsafe.apart
      rw [hrun, hlive.pairwise_iff Extent.Disjoint.symm, List.pairwise_cons] at hapart
      exact (hapart.1 e he).symm
    · intro ⟨hfree, _⟩
      refine safe_of_run hrun trivial ?_ ?_
      · rw [hlive.pairwise_iff Extent.Disjoint.symm, List.pairwise_cons]
        exact ⟨fun e he => (hfree e he).symm, hs⟩
      · intro ⟨_, e, he, hover⟩
        exact absurd (hfree e he) hover
  · rw [if_neg hlen] at hrun
    refine iff_of_false (fun hsafe => ?_) (fun hfree => hlen hfree.2)
    have hreturns := hsafe.returns
    rw [hrun] at hreturns
    exact hreturns

theorem safe_iff_careful (ht : s.Tracked) (hs : s.live.Pairwise Extent.Disjoint) (ev : Event) :
    ev.Safe s ↔ ev.Careful s := by
  cases ev with
  | getBuffer imageSize answer =>
    rcases answer with x | b
    · exact iff_of_true (safe_of_run (run_getBuffer_error x) trivial hs nofun) trivial
    · by_cases h : imageSize ≤ b.sizeBytes
      · by_cases hnull : b.memory = 0
        · refine iff_of_true (safe_of_run (run_getBuffer_null h hnull) trivial hs ?_) ?_
          · exact fun hover => absurd hnull hover.1
          · exact fun _ hne => absurd hnull hne
        · by_cases hin : b.memory ∈ s.returned
          · have hrun := run_getBuffer_offered (s := s) h hnull
            rw [if_pos hin] at hrun
            refine iff_of_true (safe_of_run hrun trivial hs fun _ => trivial) ?_
            intro _ _ hfresh
            obtain ⟨e, he, hstart⟩ := ht.mem_iff.1 hin
            exact absurd hstart (hfresh e he)
          · rw [safe_offered_iff ht hs h hnull hin]
            have hfresh : ∀ e ∈ s.live, e.start ≠ b.memory := by
              intro e he hstart
              exact hin (ht.mem_iff.2 ⟨e, he, hstart⟩)
            exact ⟨fun hfree _ _ _ => hfree, fun hcare => hcare h hnull hfresh⟩
      · refine iff_of_true (safe_of_run (run_getBuffer_small h) trivial hs fun _ => trivial) ?_
        exact fun hsize => absurd hsize h
  | take i =>
    match h : s.handles[i]? with
    | none => exact iff_of_true (safe_of_run (run_take_none h) trivial hs nofun) (by simp [Event.Careful, h])
    | some ⟨none⟩ =>
      refine iff_of_false (fun hsafe => ?_) (fun hcare => hcare h)
      have hreturns := hsafe.returns
      rw [run_take_empty h] at hreturns
      exact hreturns
    | some ⟨some e⟩ =>
      refine iff_of_true (safe_of_run (run_take_some h) trivial ?_ nofun) (by simp [Event.Careful, h])
      exact ((live_take h).pairwise_iff Extent.Disjoint.symm).2 hs
  | drop i =>
    refine iff_of_true ?_ trivial
    match h : s.handles[i]? with
    | none => exact safe_of_run (run_drop_none h) trivial hs nofun
    | some ⟨none⟩ =>
      refine safe_of_run (run_drop_empty h) trivial ?_ nofun
      exact ((live_split_none h).pairwise_iff Extent.Disjoint.symm).1 hs
    | some ⟨some e⟩ =>
      have hmem : e ∈ s.live := (live_split h).mem_iff.2 List.mem_cons_self
      obtain ⟨l, -, hrun⟩ := run_drop_some h (ht.mem_iff.2 ⟨e, hmem, rfl⟩)
      refine safe_of_run hrun trivial ?_ nofun
      exact (((live_split h).pairwise_iff Extent.Disjoint.symm).1 hs).of_cons

theorem Images.Tracked.run (ht : s.Tracked) (ev : Event) : (ev.run s).2.Tracked := by
  cases ev with
  | getBuffer imageSize answer =>
    rcases answer with x | b
    · exact ht
    · by_cases h : imageSize ≤ b.sizeBytes
      · by_cases hnull : b.memory = 0
        · rwa [run_getBuffer_null h hnull]
        · rw [run_getBuffer_offered h hnull]
          split
          · exact ht
          · next hin =>
            split
            · refine ⟨?_, (List.perm_append_singleton _ _).nodup_iff.2 (List.nodup_cons.2 ⟨hin, ht.nodup⟩)⟩
              have hlive := (live_new s (s.returned ++ [b.memory]) b.extent).map Extent.start
              exact ((List.perm_append_singleton _ _).trans (ht.perm.cons _)).trans hlive.symm
            · exact ht
      · rwa [run_getBuffer_small h]
  | take i =>
    match h : s.handles[i]? with
    | none => rwa [run_take_none h]
    | some ⟨none⟩ => rwa [run_take_empty h]
    | some ⟨some e⟩ =>
      rw [run_take_some h]
      exact ⟨ht.perm.trans ((live_take h).map _).symm, ht.nodup⟩
  | drop i =>
    match h : s.handles[i]? with
    | none => rwa [run_drop_none h]
    | some ⟨none⟩ =>
      rw [run_drop_empty h]
      exact ⟨ht.perm.trans ((live_split_none h).map _), ht.nodup⟩
    | some ⟨some e⟩ =>
      have hmem : e ∈ s.live := (live_split h).mem_iff.2 List.mem_cons_self
      obtain ⟨l, hperm, hrun⟩ := run_drop_some h (ht.mem_iff.2 ⟨e, hmem, rfl⟩)
      rw [hrun]
      -- The start of the dropped slice goes from both sides.
      have hstarts := (hperm.trans ht.perm).trans ((live_split h).map _)
      exact ⟨hstarts.cons_inv, (hperm.nodup_iff.2 ht.nodup).of_cons⟩

/-! ## Whole runs -/

def SafeRun : Images → List Event → Prop
  | _, [] => True
  | s, ev :: evs => ev.Safe s ∧ SafeRun (ev.run s).2 evs

def CarefulRun : Images → List Event → Prop
  | _, [] => True
  | s, ev :: evs => ev.Careful s ∧ CarefulRun (ev.run s).2 evs

theorem safeRun_iff (ht : s.Tracked) (hs : s.live.Pairwise Extent.Disjoint) (evs : List Event) :
    SafeRun s evs ↔ CarefulRun s evs := by
  induction evs generalizing s with
  | nil => exact Iff.rfl
  | cons ev evs ih =>
    have hstep := safe_iff_careful ht hs ev
    constructor
    · intro ⟨hsafe, hrest⟩
      exact ⟨hstep.1 hsafe, (ih (ht.run ev) hsafe.apart).1 hrest⟩
    · intro ⟨hcare, hrest⟩
      have hsafe := hstep.2 hcare
      exact ⟨hsafe, (ih (ht.run ev) hsafe.apart).2 hrest⟩

/-- From the start on, slices stay apart and no call panics exactly if every piece of memory that is
offered at a new address is wholly free, at most a hundred slices are live at a time and none is
taken twice. -/
theorem image_buffers_apart_iff (evs : List Event) :
    SafeRun .initial evs ↔ CarefulRun .initial evs :=
  safeRun_iff Images.initial_tracked .nil evs

/-- Two pages at `0x1000`, then two at `0x2000`: both are handed out, and share a page. -/
theorem image_buffers_share_page :
    ¬ SafeRun .initial [.getBuffer 8192 (.ok ⟨0x1000, 8192⟩), .getBuffer 8192 (.ok ⟨0x2000, 8192⟩)] := by
  intro hsafe
  have hapart := hsafe.2.1.apart
  revert hapart
  decide

end Gbl.Efi
