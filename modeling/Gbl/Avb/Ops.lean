import Gbl.Integration

/-!
# The callbacks of libavb (`libgbl/src/gbl_avb/ops.rs`)

`GblAvbOps` answers libavb's questions with what the platform has.
-/

namespace Gbl.Avb

open Lib Lib.Exec

/-- The part of `GblOps` that is used. -/
structure AvbPlatform (π : Type) where
  readIsDeviceUnlocked : π → Except IoError Bool × π
  readRollbackIndex : Nat → π → Except IoError Nat × π
  writeRollbackIndex : Nat → Nat → π → Except IoError Unit × π

structure SlotVerifyData where
  rollbackIndexes : List Nat
  vbmetaData : List (Except Nat (List (List UInt8 × List UInt8)))

structure Report where
  keyCalls : List (Nat × Nat)
  result : Except (SlotVerifyError × Option SlotVerifyData) SlotVerifyData

structure AvbState (π : Type) where
  platform : π
  keyVersions : List (Option (Nat × Nat))
  writes : List (Nat × Nat)
  report : Option Report

variable {π : Type} (P : AvbPlatform π)

/-- `GblAvbOps::new`. -/
def AvbState.new (p : π) : AvbState π := ⟨p, [none, none], [], none⟩

def fallbackNotImplemented {α : Type} (value : α) : Except IoError α → Res IoError α
  | .ok a => .ok a
  | .error .notImplemented => .ok value
  | .error e => .error (.err e)

def orFallback {α : Type} (value : α) (f : π → Except IoError α × π) : Exec IoError (AvbState π) α := fun s =>
  (fallbackNotImplemented value (f s.platform).1, { s with platform := (f s.platform).2 })

def readIsDeviceUnlocked : Exec IoError (AvbState π) Bool := orFallback true P.readIsDeviceUnlocked

def readRollbackIndex (loc : Nat) : Exec IoError (AvbState π) Nat :=
  orFallback 0 (P.readRollbackIndex loc)

def writeRollbackIndex (loc index : Nat) : Exec IoError (AvbState π) Unit := do
  modify fun s => { s with writes := s.writes ++ [(loc, index)] }
  orFallback () (P.writeRollbackIndex loc index)

def setKeyVersion (loc version : Nat) (keyVersions : List (Option (Nat × Nat))) :
    Option (List (Option (Nat × Nat))) :=
  match keyVersions.findIdx? (fun v => v.any (·.1 == loc)) with
  | some i => some (keyVersions.modify i (Option.map fun (l, v) => (l, max v version)))
  | none =>
    match keyVersions.findIdx? (·.isNone) with
    | some i => some (keyVersions.set i (some (loc, version)))
    | none => none

def setKeyVersions (calls : List (Nat × Nat)) (keyVersions : List (Option (Nat × Nat))) :
    Option (List (Option (Nat × Nat))) :=
  calls.foldlM (fun kvs (loc, version) => setKeyVersion loc version kvs) keyVersions

abbrev Libavb (π : Type) := Bool → π → Report × π

def slotVerify (L : Libavb π) (allowError : Bool) :
    Exec IoError (AvbState π) (Except (SlotVerifyError × Option SlotVerifyData) SlotVerifyData) := fun s =>
  let (report, p) := L allowError s.platform
  match setKeyVersions report.keyCalls s.keyVersions with
  | none => (.error .panic, { s with platform := p, report := some report })
  | some keyVersions =>
    (.ok report.result, { s with platform := p, report := some report, keyVersions := keyVersions })

/-- The index at `loc` is written if it is not yet `val`. -/
def raise (loc val : Nat) : Exec IoError (AvbState π) Unit := do
  let current ← readRollbackIndex P loc
  when (current ≠ val) (writeRollbackIndex P loc val)

def raiseAll : List (Nat × Nat) → Exec IoError (AvbState π) Unit
  | [] => pure ()
  | (loc, val) :: rest => do
    raise P loc val
    raiseAll rest

/-! ## The platform's storage -/

structure Storage where
  stored : π → Nat → Nat
  stored_unlocked : ∀ p, stored (P.readIsDeviceUnlocked p).2 = stored p
  stored_read : ∀ loc p, stored (P.readRollbackIndex loc p).2 = stored p
  read_eq : ∀ loc p v, (P.readRollbackIndex loc p).1 = .ok v → v = stored p loc
  stored_write : ∀ loc v p, stored (P.writeRollbackIndex loc v p).2 = Function.update (stored p) loc v ∨
    (P.writeRollbackIndex loc v p).1 ≠ .ok () ∧ stored (P.writeRollbackIndex loc v p).2 = stored p

/-- The platform has the two calls. -/
structure Implemented : Prop where
  read : ∀ loc p, (P.readRollbackIndex loc p).1 ≠ .error .notImplemented
  write : ∀ loc v p, (P.writeRollbackIndex loc v p).1 ≠ .error .notImplemented

variable {P} (S : Storage P) {s : AvbState π} {loc val : Nat}

theorem fallback_eq_ok {α : Type} {value a : α} {r : Except IoError α} (hr : r ≠ .error .notImplemented)
    (h : fallbackNotImplemented value r = .ok a) : r = .ok a := by
  unfold fallbackNotImplemented at h
  split at h
  · cases h
    rfl
  · exact absurd rfl hr
  · cases h

structure Raised (l : List (Nat × Nat)) (s s' : AvbState π) : Prop where
  keyVersions_eq : s'.keyVersions = s.keyVersions
  report_eq : s'.report = s.report
  writes_eq : ∃ ws, s'.writes = s.writes ++ ws ∧ ws.Sublist l ∧
    ∀ loc, S.stored s'.platform loc = S.stored s.platform loc ∨ (loc, S.stored s'.platform loc) ∈ ws

theorem Raised.refl (s : AvbState π) : Raised S [] s s :=
  ⟨rfl, rfl, [], (List.append_nil _).symm, .slnil, fun _ => .inl rfl⟩

variable {S}

variable {l l' : List (Nat × Nat)} {s' : AvbState π} {u : Unit} {calls T : List (Nat × Nat)}

theorem Raised.trans {s s'' : AvbState π} (h : Raised S l s s') (h' : Raised S l' s' s'') :
    Raised S (l ++ l') s s'' := by
  obtain ⟨ws, hws, hsub, hstored⟩ := h.writes_eq
  obtain ⟨ws', hws', hsub', hstored'⟩ := h'.writes_eq
  refine ⟨h'.keyVersions_eq.trans h.keyVersions_eq, h'.report_eq.trans h.report_eq, ws ++ ws', ?_,
    hsub.append hsub', ?_⟩
  · rw [hws', hws, List.append_assoc]
  · intro loc
    rcases hstored' loc with heq | hin
    · rw [heq]
      exact (hstored loc).imp_right (List.mem_append_left _)
    · exact .inr (List.mem_append_right _ hin)

theorem Raised.mono {s : AvbState π} (h : Raised S l s s') (hsub : l.Sublist l') :
    Raised S l' s s' := by
  obtain ⟨ws, hws, hsub', hstored⟩ := h.writes_eq
  exact ⟨h.keyVersions_eq, h.report_eq, ws, hws, hsub'.trans hsub, hstored⟩

theorem raised_read (S : Storage P) (s : AvbState π) (loc : Nat) : Raised S [] s (readRollbackIndex P loc s).2 := by
  refine ⟨rfl, rfl, [], (List.append_nil _).symm, .slnil, fun _ => .inl ?_⟩
  exact congrFun (S.stored_read loc s.platform) _

theorem raised_write (S : Storage P) (s : AvbState π) (loc val : Nat) :
    Raised S [(loc, val)] s (writeRollbackIndex P loc val s).2 := by
  refine ⟨rfl, rfl, [(loc, val)], rfl, .refl _, fun l => ?_⟩
  show S.stored (P.writeRollbackIndex loc val s.platform).2 l = _ ∨
    (l, S.stored (P.writeRollbackIndex loc val s.platform).2 l) ∈ [(loc, val)]
  rcases S.stored_write loc val s.platform with heq | ⟨-, heq⟩
  · rw [heq]
    by_cases hl : l = loc
    · subst hl
      rw [Function.update_self]
      exact .inr List.mem_cons_self
    · rw [Function.update_of_ne hl]
      exact .inl rfl
  · rw [heq]
    exact .inl rfl

theorem raise_raised (S : Storage P) (s : AvbState π) (loc val : Nat) :
    Raised S [(loc, val)] s (raise P loc val s).2 := by
  have hread := raised_read S s loc
  unfold raise
  rcases hrun : readRollbackIndex P loc s with ⟨e | current, s₁⟩
  · rw [bind_run_error hrun]
    rw [hrun] at hread
    exact hread.mono (List.nil_sublist _)
  · rw [bind_run_ok hrun]
    rw [hrun] at hread
    unfold Exec.when
    split
    · exact hread.trans (raised_write S s₁ loc val)
    · exact hread.mono (List.nil_sublist _)

theorem raiseAll_raised (S : Storage P) (s : AvbState π) (l : List (Nat × Nat)) : Raised S l s (raiseAll P l s).2 := by
  induction l generalizing s with
  | nil => exact .refl S s
  | cons c l ih =>
    have hfirst := raise_raised S s c.1 c.2
    unfold raiseAll
    rcases hrun : raise P c.1 c.2 s with ⟨e | u, s₁⟩
    · rw [bind_run_error hrun]
      rw [hrun] at hfirst
      exact hfirst.mono (List.singleton_sublist.2 List.mem_cons_self)
    · rw [bind_run_ok hrun]
      rw [hrun] at hfirst
      exact hfirst.trans (ih s₁)

theorem raise_done (hI : Implemented P) (h : raise P loc val s = (.ok u, s')) : S.stored s'.platform loc = val := by
  obtain ⟨current, s₁, hread, hwhen⟩ := bind_run_eq_ok h
  obtain ⟨hval, rfl⟩ := Prod.mk.inj hread
  have hcurrent := S.read_eq loc s.platform current (fallback_eq_ok (hI.read loc s.platform) hval)
  unfold Exec.when at hwhen
  split at hwhen
  · obtain ⟨hok, rfl⟩ := Prod.mk.inj hwhen
    have hwrite := fallback_eq_ok (hI.write loc val _) hok
    rcases S.stored_write loc val (P.readRollbackIndex loc s.platform).2 with heq | ⟨hfail, -⟩
    · exact (congrFun heq loc).trans (Function.update_self ..)
    · exact absurd hwrite hfail
  · next heq =>
    cases hwhen
    show S.stored (P.readRollbackIndex loc s.platform).2 loc = val
    rw [S.stored_read, ← hcurrent]
    exact not_not.1 heq

theorem raiseAll_done (hI : Implemented P) (hnodup : (l.map Prod.fst).Nodup)
    (h : raiseAll P l s = (.ok u, s')) : ∀ c ∈ l, S.stored s'.platform c.1 = c.2 := by
  induction l generalizing s with
  | nil => exact nofun
  | cons c l ih =>
    rw [List.map_cons, List.nodup_cons] at hnodup
    obtain ⟨_, s₁, hfirst, hrest⟩ := bind_run_eq_ok h
    refine List.forall_mem_cons.2 ⟨?_, ih hnodup.2 hrest⟩
    -- The rest leaves this location alone.
    have hraised := raiseAll_raised S s₁ l
    rw [hrest] at hraised
    obtain ⟨ws, -, hsub, hstored⟩ := hraised.writes_eq
    rcases hstored c.1 with heq | hin
    · exact heq.trans (raise_done hI hfirst)
    · exact absurd (List.mem_map_of_mem (hsub.subset hin)) hnodup.1

theorem raiseAll_append (l l' : List (Nat × Nat)) :
    raiseAll P (l ++ l') = (raiseAll P l >>= fun _ => raiseAll P l') := by
  induction l with
  | nil => rfl
  | cons c l ih =>
    rw [List.cons_append, raiseAll, raiseAll, ih, bind_assoc]

/-! ## Key versions -/

/-- The highest version reported for a location. -/
def maxReported (calls : List (Nat × Nat)) (loc : Nat) : Nat :=
  ((calls.filter (·.1 == loc)).map Prod.snd).foldl max 0

def tally (T : List (Nat × Nat)) (c : Nat × Nat) : List (Nat × Nat) :=
  if c.1 ∈ T.map Prod.fst then T.map fun p => if p.1 = c.1 then (p.1, max p.2 c.2) else p
  else T ++ [c]

/-- `T` has the highest version for each location of the calls. -/
structure Tallies (calls T : List (Nat × Nat)) : Prop where
  nodup : (T.map Prod.fst).Nodup
  mem_iff : ∀ loc, loc ∈ T.map Prod.fst ↔ loc ∈ calls.map Prod.fst
  eq_max : ∀ p ∈ T, p.2 = maxReported calls p.1

theorem maxReported_append (calls : List (Nat × Nat)) (c : Nat × Nat) (loc : Nat) : maxReported (calls ++ [c]) loc =
      if c.1 = loc then max (maxReported calls loc) c.2 else maxReported calls loc := by
  unfold maxReported
  rw [List.filter_append, List.map_append, List.foldl_append]
  split
  · next h => simp [h]
  · next h => simp [h]

theorem maxReported_eq_zero (h : loc ∉ calls.map Prod.fst) : maxReported calls loc = 0 := by
  have hnone : calls.filter (·.1 == loc) = [] := by
    refine List.filter_eq_nil_iff.2 fun c hc hloc => h ?_
    rw [← beq_iff_eq.1 hloc]
    exact List.mem_map_of_mem hc
  rw [maxReported, hnone]
  rfl

theorem map_fst_bump (T : List (Nat × Nat)) (c : Nat × Nat) :
    (T.map fun p => if p.1 = c.1 then (p.1, max p.2 c.2) else p).map Prod.fst = T.map Prod.fst := by
  rw [List.map_map]
  refine List.map_congr_left fun p _ => ?_
  show (if p.1 = c.1 then (p.1, max p.2 c.2) else p).1 = p.1
  split
  · rfl
  · rfl

theorem Tallies.step (h : Tallies calls T) (c : Nat × Nat) : Tallies (calls ++ [c]) (tally T c) := by
  unfold tally
  split
  · next hin =>
    refine ⟨?_, ?_, ?_⟩
    · rw [map_fst_bump]
      exact h.nodup
    · intro loc
      rw [map_fst_bump, h.mem_iff, List.map_append, List.mem_append]
      refine ⟨.inl, fun hloc => hloc.elim id fun hc => ?_⟩
      rw [List.mem_singleton.1 hc]
      exact (h.mem_iff c.1).1 hin
    · intro q hq
      obtain ⟨p, hp, rfl⟩ := List.mem_map.1 hq
      rw [maxReported_append]
      by_cases heq : p.1 = c.1
      · rw [if_pos heq, if_pos heq.symm, ← h.eq_max p hp]
      · rw [if_neg heq, if_neg (Ne.symm heq), ← h.eq_max p hp]
  · next hin =>
    refine ⟨?_, ?_, ?_⟩
    · rw [List.map_append, List.map_singleton]
      exact (List.perm_append_singleton _ _).nodup_iff.2 (List.nodup_cons.2 ⟨hin, h.nodup⟩)
    · intro loc
      rw [List.map_append, List.mem_append, h.mem_iff, List.map_append, List.mem_append]
    · intro p hp
      rw [maxReported_append]
      rcases List.mem_append.1 hp with hp | hp
      · have hne : c.1 ≠ p.1 := fun heq => hin (heq ▸ List.mem_map_of_mem hp)
        rw [if_neg hne]
        exact h.eq_max p hp
      · rw [List.mem_singleton.1 hp, if_pos rfl, maxReported_eq_zero (mt (h.mem_iff c.1).2 hin), Nat.zero_max]

theorem Tallies.foldl (h : Tallies calls T) (more : List (Nat × Nat)) :
    Tallies (calls ++ more) (more.foldl tally T) := by
  induction more generalizing calls T with
  | nil => rwa [List.append_nil]
  | cons c more ih =>
    rw [List.append_cons]
    exact ih (h.step c)

theorem tallies (calls : List (Nat × Nat)) : Tallies calls (calls.foldl tally []) := by
  have hnil : Tallies [] [] := ⟨List.nodup_nil, fun _ => Iff.rfl, fun _ h => absurd h List.not_mem_nil⟩
  exact hnil.foldl calls

/-- At most two locations are reported. -/
def AtMostTwo (calls : List (Nat × Nat)) : Prop := ∃ a b, ∀ c ∈ calls, c.1 = a ∨ c.1 = b

theorem Tallies.length_le (h : Tallies calls T) (htwo : AtMostTwo calls) : T.length ≤ 2 := by
  obtain ⟨a, b, hab⟩ := htwo
  have hsub : T.map Prod.fst ⊆ [a, b] := by
    intro loc hloc
    obtain ⟨c, hc, rfl⟩ := List.mem_map.1 ((h.mem_iff loc).1 hloc)
    simpa using hab c hc
  have hle := (List.subperm_of_subset h.nodup hsub).length_le
  rwa [List.length_map] at hle

/-- The table of `GblAvbOps` for what has been tallied. -/
def table (T : List (Nat × Nat)) : List (Option (Nat × Nat)) :=
  T.map some ++ List.replicate (2 - T.length) none

theorem length_tally (T : List (Nat × Nat)) (c : Nat × Nat) : T.length ≤ (tally T c).length := by
  unfold tally
  split
  · exact Nat.le_of_eq (List.length_map _).symm
  · simp

theorem length_foldl_tally (T calls : List (Nat × Nat)) : T.length ≤ (calls.foldl tally T).length := by
  induction calls generalizing T with
  | nil => exact Nat.le_refl _
  | cons c calls ih => exact Nat.le_trans (length_tally T c) (ih _)

theorem setKeyVersion_table {c : Nat × Nat} (hnodup : (T.map Prod.fst).Nodup) (h : (tally T c).length ≤ 2) :
    setKeyVersion c.1 c.2 (table T) = some (table (tally T c)) := by
  obtain ⟨loc, version⟩ := c
  match T with
  | [] => simp [setKeyVersion, table, tally, List.findIdx?_cons]
  | [(l, v)] =>
    by_cases hl : l = loc
    · simp [setKeyVersion, table, tally, List.findIdx?_cons, hl]
    · have hl' : ¬ loc = l := fun heq => hl heq.symm
      simp [setKeyVersion, table, tally, List.findIdx?_cons, hl, hl']
  | [(l, v), (l₂, v₂)] =>
    have hne : ¬ l = l₂ := by simpa using hnodup
    by_cases hl : l = loc
    · subst hl
      simp [setKeyVersion, table, tally, List.findIdx?_cons, Ne.symm hne]
    · by_cases hl₂ : l₂ = loc
      · simp [setKeyVersion, table, tally, List.findIdx?_cons, hl, hl₂]
      · -- A third location makes the table too long.
        simp [tally, Ne.symm hl, Ne.symm hl₂] at h
  | _ :: _ :: _ :: _ =>
    have hlong := Nat.le_trans (length_tally _ _) h
    simp at hlong

theorem setKeyVersions_table {seen : List (Nat × Nat)} (hT : Tallies seen T) (h : (calls.foldl tally T).length ≤ 2) :
    setKeyVersions calls (table T) = some (table (calls.foldl tally T)) := by
  induction calls generalizing seen T with
  | nil => rfl
  | cons c calls ih =>
    have hstep := setKeyVersion_table hT.nodup (Nat.le_trans (length_foldl_tally (tally T c) calls) h)
    unfold setKeyVersions
    rw [List.foldlM_cons]
    show (setKeyVersion c.1 c.2 (table T) >>= _) = _
    rw [hstep]
    exact ih (hT.step c) h

theorem filterMap_table (T : List (Nat × Nat)) : (table T).filterMap id = T := by
  simp [table]

end Gbl.Avb
