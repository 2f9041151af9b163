import Gbl.Avb.Ops

/-!
# Verifying a Fuchsia kernel (`libgbl/src/fuchsia_boot/vboot.rs`)

`zircon_verify_kernel` has libavb verify the loaded kernel, collects items for the kernel from the
verified metadata, and raises the stored rollback indices if the slot is known to boot. libavb, the
platform and the ZBI library are arbitrary.
-/

namespace Gbl.FuchsiaBoot

open Lib Lib.Exec Avb

variable {π ζ : Type}

structure ZbiLib (ζ : Type) where
  parse : List UInt8 → Except Nat (List (List UInt8))
  containerSize : List UInt8 → Except Nat Nat
  extendItems : List (List UInt8) → ζ → Except Nat Unit × ζ
  extendUnaligned : List UInt8 → ζ → Except Nat Unit × ζ

abbrev VbootState (π ζ : Type) := AvbState π × ζ

def zbiResult {α : Type} : Except Nat α → Res IntegrationError α
  | .ok a => .ok a
  | .error code => .error (.err (.zbiError code))

def onZbi {α : Type} (f : ζ → Except Nat α × ζ) : Exec IntegrationError (VbootState π ζ) α := fun w =>
  (zbiResult (f w.2).1, (w.1, (f w.2).2))

def onAvb {α : Type} (m : Exec IoError (AvbState π) α) : Exec IntegrationError (VbootState π ζ) α :=
  zoom Prod.fst (fun w a => (a, w.2)) (mapErr .avbIoError m)

def copyItemsAfterKernel (Z : ZbiLib ζ) (zbiKernel : List UInt8) : Exec IntegrationError (VbootState π ζ) Unit := do
  let items ← lift (zbiResult (Z.parse zbiKernel))
  onZbi (Z.extendItems items.tail)

def zbiSplitUnusedBuffer (Z : ZbiLib ζ) (zbiKernel : List UInt8) :
    Exec IntegrationError (VbootState π ζ) (List UInt8) := do
  let size ← lift (zbiResult (Z.containerSize zbiKernel))
  assert (decide (size ≤ zbiKernel.length))
  pure (zbiKernel.take size)

def zbiKey : List UInt8 := [0x7a, 0x62, 0x69]

def appendProperties (Z : ZbiLib ζ) : List (List UInt8 × List UInt8) → Exec IntegrationError (VbootState π ζ) Unit
  | [] => pure ()
  | (key, value) :: rest => do
    when (zbiKey.isPrefixOf key = true) (onZbi (Z.extendUnaligned value))
    appendProperties Z rest

def descriptorResult {α : Type} : Except Nat α → Res IntegrationError α
  | .ok a => .ok a
  | .error code => .error (.err (.avbDescriptorError code))

def appendItems (Z : ZbiLib ζ) :
    List (Except Nat (List (List UInt8 × List UInt8))) → Exec IntegrationError (VbootState π ζ) Unit
  | [] => pure ()
  | vbmeta :: rest => do
    let properties ← lift (descriptorResult vbmeta)
    appendProperties Z properties
    appendItems Z rest

def raiseIndexes (P : AvbPlatform π) : Nat → List Nat → Exec IoError (AvbState π) Unit
  | _, [] => pure ()
  | loc, val :: rest => do
    when (0 < val) (raise P loc val)
    raiseIndexes P (loc + 1) rest

def raiseKeyVersions (P : AvbPlatform π) : List (Option (Nat × Nat)) → Exec IoError (AvbState π) Unit
  | [] => pure ()
  | none :: rest => raiseKeyVersions P rest
  | some (loc, rollback) :: rest => do
    raise P loc rollback
    raiseKeyVersions P rest

def raiseRollbacks (P : AvbPlatform π) (data : SlotVerifyData) : Exec IoError (AvbState π) Unit := do
  raiseIndexes P 0 data.rollbackIndexes
  let s ← get
  raiseKeyVersions P s.keyVersions

def useVerifyData (Z : ZbiLib ζ) (P : AvbPlatform π) (slotBootedSuccessfully verifiedSuccess : Bool)
    (data : SlotVerifyData) : Exec IntegrationError (VbootState π ζ) Unit := do
  appendItems Z data.vbmetaData
  when ((verifiedSuccess && slotBootedSuccessfully) = true) (onAvb (raiseRollbacks P data))

def zirconVerifyKernel (Z : ZbiLib ζ) (P : AvbPlatform π) (L : List UInt8 → Libavb π) (slotBootedSuccessfully : Bool)
    (zbiKernel : List UInt8) : Exec IntegrationError (VbootState π ζ) Unit := do
  copyItemsAfterKernel Z zbiKernel
  let kernel ← zbiSplitUnusedBuffer Z zbiKernel
  let unlocked ← onAvb (readIsDeviceUnlocked P)
  let result ← onAvb (slotVerify (L kernel) unlocked)
  match result with
  | .ok data => useVerifyData Z P slotBootedSuccessfully true data
  | .error (e, data) =>
    match unlocked, data with
    | true, some data => useVerifyData Z P slotBootedSuccessfully false data
    | true, none => pure ()
    | false, _ => lift (.error (.err (.avbSlotVerifyError e)))

/-! ## The two loops as one -/

def positives : Nat → List Nat → List (Nat × Nat)
  | _, [] => []
  | loc, val :: rest => if 0 < val then (loc, val) :: positives (loc + 1) rest else positives (loc + 1) rest

theorem mem_positives {loc val i : Nat} {l : List Nat} :
    (loc, val) ∈ positives i l ↔ i ≤ loc ∧ l[loc - i]? = some val ∧ 0 < val := by
  induction l generalizing i with
  | nil => simp [positives]
  | cons v l ih =>
    have hstep : (loc, val) ∈ positives (i + 1) l ↔ i < loc ∧ (v :: l)[loc - i]? = some val ∧ 0 < val := by
      rw [ih]
      refine and_congr_right fun hlt => ?_
      rw [show loc - i = loc - (i + 1) + 1 by omega, List.getElem?_cons_succ]
    unfold positives
    split
    · next hv =>
      rw [List.mem_cons, hstep, Prod.mk.injEq]
      constructor
      · rintro (⟨rfl, rfl⟩ | ⟨hlt, h⟩)
        · exact ⟨Nat.le_refl _, by simp, hv⟩
        · exact ⟨Nat.le_of_lt hlt, h⟩
      · intro ⟨hle, h⟩
        rcases Nat.lt_or_eq_of_le hle with hlt | rfl
        · exact .inr ⟨hlt, h⟩
        · rw [Nat.sub_self, List.getElem?_cons_zero, Option.some.injEq] at h
          exact .inl ⟨rfl, h.1.symm⟩
    · next hv =>
      rw [hstep]
      refine ⟨fun ⟨hlt, h⟩ => ⟨Nat.le_of_lt hlt, h⟩, fun ⟨hle, h⟩ => ⟨?_, h⟩⟩
      refine Nat.lt_of_le_of_ne hle ?_
      rintro rfl
      rw [Nat.sub_self, List.getElem?_cons_zero, Option.some.injEq] at h
      exact hv (h.1 ▸ h.2)

theorem nodup_positives (i : Nat) (l : List Nat) : ((positives i l).map Prod.fst).Nodup := by
  induction l generalizing i with
  | nil => exact List.nodup_nil
  | cons v l ih =>
    unfold positives
    split
    · rw [List.map_cons, List.nodup_cons]
      refine ⟨fun hin => ?_, ih (i + 1)⟩
      obtain ⟨⟨loc, val⟩, hmem, heq⟩ := List.mem_map.1 hin
      obtain rfl : loc = i := heq
      exact absurd (mem_positives.1 hmem).1 (Nat.not_succ_le_self loc)
    · exact ih (i + 1)

theorem raiseIndexes_eq (P : AvbPlatform π) (i : Nat) (l : List Nat) :
    raiseIndexes P i l = raiseAll P (positives i l) := by
  induction l generalizing i with
  | nil => rfl
  | cons v l ih =>
    rw [raiseIndexes, positives, ih]
    unfold Exec.when
    split
    · rfl
    · rfl

theorem raiseKeyVersions_eq (P : AvbPlatform π) (keyVersions : List (Option (Nat × Nat))) :
    raiseKeyVersions P keyVersions = raiseAll P (keyVersions.filterMap id) := by
  induction keyVersions with
  | nil => rfl
  | cons v rest ih =>
    cases v with
    | none => exact ih
    | some c =>
      rw [raiseKeyVersions, ih]
      rfl

variable {T : List (Nat × Nat)} {report : Report} {data : SlotVerifyData}

theorem raiseRollbacks_run {P : AvbPlatform π} (S : Storage P) (data : SlotVerifyData) {s : AvbState π}
    (hT : s.keyVersions = table T) :
    raiseRollbacks P data s = raiseAll P (positives 0 data.rollbackIndexes ++ T) s := by
  have hraised := raiseAll_raised S s (positives 0 data.rollbackIndexes)
  rw [raiseRollbacks, raiseIndexes_eq, raiseAll_append]
  rcases hrun : raiseAll P (positives 0 data.rollbackIndexes) s with ⟨e | u, s₁⟩
  · rw [bind_run_error hrun, bind_run_error hrun]
  · rw [hrun] at hraised
    rw [bind_run_ok hrun, bind_run_ok hrun, bind_run_ok (get_run s₁), raiseKeyVersions_eq,
      hraised.keyVersions_eq, hT, filterMap_table]

/-! ## What is protected -/

variable {P : AvbPlatform π} (S : Storage P)

def Indexed (data : SlotVerifyData) (loc : Nat) : Prop :=
  ∃ val, data.rollbackIndexes[loc]? = some val ∧ 0 < val

def Keyed (calls : List (Nat × Nat)) (loc : Nat) : Prop := loc ∈ calls.map Prod.fst

def Distinct (calls : List (Nat × Nat)) (data : SlotVerifyData) : Prop :=
  ∀ loc, Keyed calls loc → ¬ Indexed data loc

def AtLeastStored (p : π) (calls : List (Nat × Nat)) (data : SlotVerifyData) : Prop :=
  (∀ loc val, data.rollbackIndexes[loc]? = some val → S.stored p loc ≤ val) ∧
    ∀ c ∈ calls, S.stored p c.1 ≤ c.2

structure Protected (booted : Bool) (p : π) (r : Res IntegrationError Unit) (a : AvbState π) : Prop where
  only_verified : ∀ c ∈ a.writes, booted = true ∧ ∃ report data, a.report = some report ∧
    report.result = .ok data ∧ (Indexed data c.1 ∨ Keyed report.keyCalls c.1)
  unwritten : ∀ loc, loc ∉ a.writes.map Prod.fst → S.stored a.platform loc = S.stored p loc
  raised : ∀ report data, a.report = some report → report.result = .ok data →
    Distinct report.keyCalls data → Implemented P → booted = true → r = .ok () →
    (∀ loc val, data.rollbackIndexes[loc]? = some val → 0 < val → S.stored a.platform loc = val) ∧
      ∀ loc, Keyed report.keyCalls loc → S.stored a.platform loc = maxReported report.keyCalls loc
  forward : ∀ report data, a.report = some report → report.result = .ok data →
    Distinct report.keyCalls data → AtLeastStored S p report.keyCalls data →
    (a.writes.map Prod.fst).Nodup ∧ ∀ loc, S.stored p loc ≤ S.stored a.platform loc

variable {S} {booted : Bool} {p : π} {r : Res IntegrationError Unit} {a a' : AvbState π}

theorem Protected.of_quiet (hwrites : a.writes = []) (hstored : S.stored a.platform = S.stored p)
    (hr : ∀ report data, a.report = some report → report.result = .ok data → booted = true → r ≠ .ok ()) :
    Protected S booted p r a where
  only_verified := by simp [hwrites]
  unwritten loc _ := congrFun hstored loc
  raised report data hreport hok _ _ hbooted hret := absurd hret (hr report data hreport hok hbooted)
  forward _ _ _ _ _ _ := by
    rw [hwrites, hstored]
    exact ⟨List.nodup_nil, fun _ => Nat.le_refl _⟩

theorem le_foldl_max (l : List Nat) (m : Nat) : m ≤ l.foldl max m ∧ ∀ x ∈ l, x ≤ l.foldl max m := by
  induction l generalizing m with
  | nil => exact ⟨Nat.le_refl _, nofun⟩
  | cons y l ih =>
    obtain ⟨hle, hall⟩ := ih (max m y)
    refine ⟨Nat.le_trans (Nat.le_max_left m y) hle, ?_⟩
    exact List.forall_mem_cons.2 ⟨Nat.le_trans (Nat.le_max_right m y) hle, hall⟩

theorem le_maxReported {calls : List (Nat × Nat)} {c : Nat × Nat} (hc : c ∈ calls) : c.2 ≤ maxReported calls c.1 := by
  refine (le_foldl_max _ 0).2 c.2 (List.mem_map_of_mem ?_)
  exact List.mem_filter.2 ⟨hc, beq_self_eq_true _⟩

theorem Protected.of_raised (hreport : a.report = some report) (hok : report.result = .ok data)
    (hT : Tallies report.keyCalls T) (hwrites : a.writes = []) (hstored : S.stored a.platform = S.stored p)
    (hraised : Raised S (positives 0 data.rollbackIndexes ++ T) a a')
    (hdone : r = .ok () → raiseAll P (positives 0 data.rollbackIndexes ++ T) a = (.ok (), a')) :
    Protected S true p r a' := by
  obtain ⟨ws, hws, hsub, hcases⟩ := hraised.writes_eq
  rw [hwrites, List.nil_append] at hws
  have hreport' : a'.report = some report := hraised.report_eq.trans hreport
  -- Where a written location comes from.
  have hkind : ∀ loc val, (loc, val) ∈ positives 0 data.rollbackIndexes ++ T →
      data.rollbackIndexes[loc]? = some val ∧ 0 < val ∨
        Keyed report.keyCalls loc ∧ val = maxReported report.keyCalls loc := by
    intro loc val hin
    rcases List.mem_append.1 hin with hin | hin
    · exact .inl (mem_positives.1 hin).2
    · exact .inr ⟨(hT.mem_iff loc).1 (List.mem_map_of_mem hin), hT.eq_max _ hin⟩
  have hnodup : Distinct report.keyCalls data → ((positives 0 data.rollbackIndexes ++ T).map Prod.fst).Nodup := by
    intro hdistinct
    rw [List.map_append]
    refine List.nodup_append'.2 ⟨nodup_positives 0 _, hT.nodup, fun loc hpos hkey => ?_⟩
    obtain ⟨⟨_, val⟩, hmem, rfl⟩ := List.mem_map.1 hpos
    exact hdistinct _ ((hT.mem_iff _).1 hkey) ⟨val, (mem_positives.1 hmem).2⟩
  refine ⟨?_, ?_, ?_, ?_⟩
  · intro c hc
    rw [hws] at hc
    refine ⟨rfl, report, data, hreport', hok, ?_⟩
    exact (hkind c.1 c.2 (hsub.subset hc)).imp (fun h => ⟨c.2, h⟩) (fun h => h.1)
  · intro loc hloc
    rw [hws] at hloc
    rw [← hstored]
    exact (hcases loc).resolve_right fun hin => hloc (List.mem_map_of_mem hin)
  · intro report₂ data₂ hreport₂ hok₂ hdistinct himpl _ hret
    cases hreport'.symm.trans hreport₂
    cases hok.symm.trans hok₂
    have hall := raiseAll_done (S := S) himpl (hnodup hdistinct) (hdone hret)
    constructor
    · intro loc val hval hpos
      exact hall (loc, val) (List.mem_append_left _ (mem_positives.2 ⟨Nat.zero_le _, hval, hpos⟩))
    · intro loc hkey
      obtain ⟨c, hc, rfl⟩ := List.mem_map.1 ((hT.mem_iff loc).2 hkey)
      rw [hall c (List.mem_append_right _ hc)]
      exact hT.eq_max c hc
  · intro report₂ data₂ hreport₂ hok₂ hdistinct hleast
    cases hreport'.symm.trans hreport₂
    cases hok.symm.trans hok₂
    constructor
    · rw [hws]
      exact (hnodup hdistinct).sublist (hsub.map Prod.fst)
    · intro loc
      rcases hcases loc with heq | hin
      · refine Nat.le_of_eq ?_
        rw [heq, hstored]
      · rcases hkind _ _ (hsub.subset hin) with ⟨hval, -⟩ | ⟨hkey, hmax⟩
        · exact hleast.1 loc _ hval
        · rw [hmax]
          obtain ⟨c, hc, rfl⟩ := List.mem_map.1 hkey
          exact Nat.le_trans (hleast.2 c hc) (le_maxReported hc)

/-! ## The call -/

variable {Z : ZbiLib ζ} {z : ζ} {L : List UInt8 → Libavb π} {zbiKernel : List UInt8}

theorem keeps_onZbi {α : Type} (f : ζ → Except Nat α × ζ) (a : AvbState π) :
    Keeps (fun w => w.1 = a) (onZbi f : Exec IntegrationError (VbootState π ζ) α) := fun _ h => h

theorem keeps_copyItems (a : AvbState π) : Keeps (fun w => w.1 = a) (copyItemsAfterKernel Z zbiKernel) :=
  keeps_bind (keeps_lift _) fun _ => keeps_onZbi _ a

theorem keeps_splitUnused (a : AvbState π) : Keeps (fun w => w.1 = a) (zbiSplitUnusedBuffer (π := π) Z zbiKernel) := by
  refine keeps_bind (keeps_lift _) fun size => keeps_bind ?_ fun _ => keeps_pure _
  exact keeps_lift _

theorem keeps_appendProperties (a : AvbState π) (l : List (List UInt8 × List UInt8)) :
    Keeps (fun w => w.1 = a) (appendProperties Z l) := by
  induction l with
  | nil => exact keeps_pure ()
  | cons c l ih => exact keeps_bind (keeps_when (keeps_onZbi _ a)) fun _ => ih

theorem keeps_appendItems (a : AvbState π) (l : List (Except Nat (List (List UInt8 × List UInt8)))) :
    Keeps (fun w => w.1 = a) (appendItems Z l) := by
  induction l with
  | nil => exact keeps_pure ()
  | cons c l ih => exact keeps_bind (keeps_lift _) fun _ => keeps_bind (keeps_appendProperties a _) fun _ => ih

structure Verified (S : Storage P) (p : π) (report : Report) (T : List (Nat × Nat)) (a : AvbState π) : Prop where
  report_eq : a.report = some report
  tallies : Tallies report.keyCalls T
  keyVersions_eq : a.keyVersions = table T
  writes_eq : a.writes = []
  stored_eq : S.stored a.platform = S.stored p

theorem slotVerify_run {V : Libavb π} {flag : Bool} {p₁ : π} (htwo : AtMostTwo (V flag p₁).1.keyCalls) :
    slotVerify V flag (.new p₁) = (.ok (V flag p₁).1.result,
      ⟨(V flag p₁).2, table ((V flag p₁).1.keyCalls.foldl tally []), [], some (V flag p₁).1⟩) := by
  have htally := tallies (V flag p₁).1.keyCalls
  have hset : setKeyVersions (V flag p₁).1.keyCalls [none, none] = _ :=
    setKeyVersions_table (tallies []) (htally.length_le htwo)
  unfold slotVerify AvbState.new
  simp only [hset]
  rfl

theorem protected_useVerifyData (hver : Verified S p report T a) (hok : report.result = .ok data) (z : ζ) :
    wp (useVerifyData Z P booted true data) (a, z) fun r w => Protected S booted p r w.1 := by
  have hquiet : ∀ {r : Res IntegrationError Unit}, (booted = true → r ≠ .ok ()) → Protected S booted p r a :=
    fun hr => .of_quiet hver.writes_eq hver.stored_eq fun _ _ _ _ => hr
  refine wp_bind (R := fun _ w => w.1 = a) (wp_of_keeps (keeps_appendItems a data.vbmetaData) rfl) ?_ ?_
  · rintro _ w rfl
    refine wp_when (fun hbooted => ?_) fun hbooted => ?_
    · obtain rfl : booted = true := hbooted
      have hrun := raiseRollbacks_run S data hver.keyVersions_eq
      refine wp_zoom (Protected.of_raised hver.report_eq hok hver.tallies hver.writes_eq hver.stored_eq ?_ ?_)
      · rw [mapErr_snd, hrun]
        exact raiseAll_raised S _ _
      · intro hret
        rw [← hrun]
        exact mapErr_run_eq_ok (Prod.ext hret rfl)
    · exact hquiet fun hb => absurd hb hbooted
  · rintro e w rfl
    exact hquiet fun _ => nofun

theorem protected_unverified {e : SlotVerifyError × Option SlotVerifyData} (hver : Verified S p report T a)
    (herr : report.result = .error e) (z : ζ) :
    wp (useVerifyData Z P booted false data) (a, z) fun r w => Protected S booted p r w.1 := by
  have hquiet : ∀ {r : Res IntegrationError Unit}, Protected S booted p r a := by
    refine .of_quiet hver.writes_eq hver.stored_eq fun report₂ data hreport hok => ?_
    cases hver.report_eq.symm.trans hreport
    cases herr.symm.trans hok
  refine wp_bind (R := fun _ w => w.1 = a) (wp_of_keeps (keeps_appendItems a data.vbmetaData) rfl) ?_ ?_
  · rintro _ w rfl
    exact wp_when (fun hbooted => absurd hbooted (by simp)) fun _ => hquiet
  · rintro e w rfl
    exact hquiet

/-- For every libavb that reports key versions for at most two locations and leaves the stored indices
alone, and for everything the platform and the ZBI library may do. -/
theorem rollback_only_forward (Z : ZbiLib ζ) (S : Storage P) (L : List UInt8 → Libavb π)
    (hL : ∀ kernel flag p, S.stored (L kernel flag p).2 = S.stored p)
    (htwo : ∀ kernel flag p, AtMostTwo (L kernel flag p).1.keyCalls)
    (booted : Bool) (zbiKernel : List UInt8) (p : π) (z : ζ) :
    Protected S booted p (zirconVerifyKernel Z P L booted zbiKernel (.new p, z)).1
      (zirconVerifyKernel Z P L booted zbiKernel (.new p, z)).2.1 := by
  -- Before libavb is asked there is no report, and nothing is written.
  have hbefore : ∀ {r : Res IntegrationError Unit} {p₁ : π}, S.stored p₁ = S.stored p →
      Protected S booted p r (.new p₁) := by
    intro r p₁ hstored
    exact .of_quiet rfl hstored fun _ _ hreport => nomatch hreport
  show wp (zirconVerifyKernel Z P L booted zbiKernel) (.new p, z) fun r w => Protected S booted p r w.1
  refine wp_bind (R := fun _ w => w.1 = .new p) (wp_of_keeps (keeps_copyItems (.new p)) rfl) ?_ ?_
  · intro _ w hw
    refine wp_bind (R := fun _ w => w.1 = .new p) (wp_of_keeps (keeps_splitUnused (.new p)) hw) ?_ ?_
    · intro kernel w hw
      refine wp_bind (R := fun _ w => ∃ p₁, w.1 = .new p₁ ∧ S.stored p₁ = S.stored p) ?_ ?_ ?_
      · refine wp_zoom ⟨(P.readIsDeviceUnlocked p).2, ?_, S.stored_unlocked p⟩
        rw [mapErr_snd, hw]
        rfl
      · rintro unlocked w ⟨p₁, hw, hstored⟩
        refine wp_bind (R := fun r w => ∃ report T, r = .ok report.result ∧ Verified S p report T w.1) ?_ ?_ ?_
        · refine wp_zoom ⟨(L kernel unlocked p₁).1, (L kernel unlocked p₁).1.keyCalls.foldl tally [], ?_⟩
          rw [hw, mapErr_run_ok (slotVerify_run (htwo kernel unlocked p₁))]
          exact ⟨rfl, rfl, tallies _, rfl, rfl, (hL kernel unlocked p₁).trans hstored⟩
        · rintro result ⟨a, z⟩ ⟨report, T, hres, hver⟩
          obtain rfl : result = report.result := Except.ok.inj hres
          match hresult : report.result with
          | .ok data => exact protected_useVerifyData hver hresult z
          | .error (e, data) =>
            have hquiet : ∀ {r : Res IntegrationError Unit}, Protected S booted p r a := by
              refine .of_quiet hver.writes_eq hver.stored_eq fun report₂ data hreport hok => ?_
              cases hver.report_eq.symm.trans hreport
              cases hresult.symm.trans hok
            match unlocked, data with
            | true, some data => exact protected_unverified hver hresult z
            | true, none => exact hquiet
            | false, none => exact hquiet
            | false, some _ => exact hquiet
        · rintro e w ⟨report, T, hres, -⟩
          cases hres
      · rintro e w ⟨p₁, hw, hstored⟩
        rw [hw]
        exact hbefore hstored
    · intro e w hw
      rw [hw]
      exact hbefore rfl
  · intro e w hw
    rw [hw]
    exact hbefore rfl

/-! ## A platform that is its table of indices -/

namespace Indices

def platform : AvbPlatform (Nat → Nat) where
  readIsDeviceUnlocked p := (.ok false, p)
  readRollbackIndex loc p := (.ok (p loc), p)
  writeRollbackIndex loc v p := (.ok (), Function.update p loc v)

def readOnlyPlatform : AvbPlatform (Nat → Nat) :=
  { platform with writeRollbackIndex := fun _ _ p => (.error .notImplemented, p) }

def storage : Storage platform where
  stored := id
  stored_unlocked _ := rfl
  stored_read _ _ := rfl
  read_eq _ _ _ h := (Except.ok.inj h).symm
  stored_write _ _ _ := .inl rfl

def zbi : ZbiLib Unit := ⟨fun _ => .ok [], fun _ => .ok 0, fun _ z => (.ok (), z), fun _ z => (.ok (), z)⟩

def libavb (keyCalls : List (Nat × Nat)) : List UInt8 → Libavb (Nat → Nat) :=
  fun _ _ p => (⟨keyCalls, .ok ⟨[0, 5], []⟩⟩, p)

def run (P : AvbPlatform (Nat → Nat)) (keyCalls : List (Nat × Nat)) :
    Res IntegrationError Unit × VbootState (Nat → Nat) Unit :=
  zirconVerifyKernel zbi P (libavb keyCalls) true [] (.new fun _ => 0, ())

end Indices

open Indices

theorem rollback_only_forward_indices :
    (∀ kernel flag p, storage.stored (libavb [(0x1000, 7), (0x1001, 2), (0x1000, 9)] kernel flag p).2 =
      storage.stored p) ∧
    (∀ kernel flag p, AtMostTwo (libavb [(0x1000, 7), (0x1001, 2), (0x1000, 9)] kernel flag p).1.keyCalls) ∧
    Protected storage true (fun _ => 0) (run platform [(0x1000, 7), (0x1001, 2), (0x1000, 9)]).1
      (run platform [(0x1000, 7), (0x1001, 2), (0x1000, 9)]).2.1 := by
  have htwo : AtMostTwo [(0x1000, 7), (0x1001, 2), (0x1000, 9)] := ⟨0x1000, 0x1001, by simp⟩
  exact ⟨fun _ _ _ => rfl, fun _ _ _ => htwo,
    rollback_only_forward zbi storage _ (fun _ _ _ => rfl) (fun _ _ _ => htwo) true [] _ ()⟩

/-- With a key version at a location that also has an index, the location ends up with the key
version; and a platform that cannot write has nothing of the index. Both calls return Ok. -/
theorem rollback_index_not_held :
    ((run platform [(1, 3)]).1 = .ok () ∧ (run platform [(1, 3)]).2.1.platform 1 = 3) ∧
      (run readOnlyPlatform []).1 = .ok () ∧ (run readOnlyPlatform []).2.1.platform 1 = 0 :=
  ⟨⟨rfl, rfl⟩, rfl, rfl⟩

end Gbl.FuchsiaBoot
