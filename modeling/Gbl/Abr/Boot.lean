import Gbl.Abr.Store
import Gbl.Lib.Run

/-!
# Every device boots something, and soon the right thing

The bytes in storage show a policy, and `get_boot_slot` does to them what booting does to the policy.
-/

namespace Gbl.Abr

open Lib Lib.Exec AbrData

namespace Ops

def Shows (s : Ops) (p : Policy) : Prop :=
  s.Working ∧ ∃ d orig, loaded (parse s.content) = .ok (d, orig) ∧ d.Sees p

def writes (s : Ops) : List Metadata :=
  s.calls.filterMap fun
    | .readAbrMetadata => none
    | .writeAbrMetadata data => some data

@[simp] theorem writes_called_read (s : Ops) : (s.called .readAbrMetadata).writes = s.writes := rfl

end Ops

variable {s : Ops} {p : Policy}

def wantsRecovery (c : Metadata) : Bool :=
  match loaded (parse c) with
  | .ok (d, _) => d.isOneShotRecovery
  | .error _ => false

theorem wantsRecovery_eq {c : Metadata} {d orig : AbrData} (h : loaded (parse c) = .ok (d, orig)) :
    wantsRecovery c = d.isOneShotRecovery := by
  simp only [wantsRecovery, h]

theorem isOneShotRecovery_cleared (d : AbrData) : (d.setOneShotRecovery false).isOneShotRecovery = false := by
  have hbit : (~~~ 1 &&& 1 : UInt8) = 0 := by decide
  simp [isOneShotRecovery, AbrData.setOneShotRecovery, setOneShot, oneShotRecovery, UInt8.and_assoc, hbit]

theorem shows_of_parse {d : AbrData} (hw : s.Working)
    (h : ∃ crc, parse s.content = .ok { d with crc32 := crc }) (hp : d.Sees p) : s.Shows p := by
  obtain ⟨crc, h⟩ := h
  obtain ⟨hwf, hp⟩ := hp
  exact ⟨hw, _, _, loaded_of_parse h ⟨hwf.a, hwf.b⟩, ⟨hwf.a, hwf.b⟩, hp⟩

theorem getBootSlot_refines (h : s.Shows p) :
    (getBootSlot true s).1 = .ok p.boot.1 ∧ (getBootSlot true s).2.Shows p.boot.2 := by
  obtain ⟨hw, d, orig, hl, hwf, rfl⟩ := h
  obtain ⟨hg, -, -⟩ := loaded_eq_ok (fun _ => genuine_of_parse) hl
  cases hrec : d.isOneShotRecovery with
  | true =>
    have hclear := isOneShotRecovery_cleared d
    have hboot : (d.policy hwf).boot = ((.r, false), { d.policy hwf with recovery := false }) := if_pos hrec
    rw [getBootSlot_run_recovery hw hl hrec, hboot]
    refine ⟨rfl, shows_of_parse (d := d.setOneShotRecovery false) ((hw.called _).stored _) ?_ ?_⟩
    · exact ⟨_, parse_serialize hg⟩
    · exact ⟨⟨hwf.a, hwf.b⟩, Policy.ext rfl rfl hclear⟩
  | false =>
    obtain ⟨d', hd', hkind, hsees⟩ := bootSlot_spec hwf hrec
    rw [getBootSlot_run_boot hw hl hrec hd']
    refine ⟨?_, shows_of_parse ((hw.called _).saved _ _) ?_ hsees⟩
    · have hrec' : (d.policy hwf).recovery = false := hrec
      rw [Policy.boot, if_neg (by rw [hrec']; simp), isMarkedSuccessful_eq hwf, getActiveSlot_eq hwf]
    · rw [Ops.saved_content]
      exact parse_kept (fun _ h => h) hl (hkind.genuine hg)

theorem nth_of_settled (hs : s.Shows p) (hrec : p.recovery = false) (h : p.Settled) (n : Nat) :
    (getBootSlot true).nth n s = .ok (p.active, true) := by
  refine nth_of_invariant (I := fun s => ∃ q, s.Shows q ∧ q.recovery = false ∧ q.Settled ∧
    q.active = p.active) (Q := (· = .ok (p.active, true))) ?_ n ⟨p, hs, hrec, h, rfl⟩
  rintro s ⟨q, hq, hrec, hset, hact⟩
  obtain ⟨hout, hnext⟩ := getBootSlot_refines hq
  obtain ⟨-, hboot, hrec', hset', hact'⟩ := Policy.boot_of_settled hrec hset
  rw [hboot, hact] at hout
  exact ⟨hout, _, hnext, hrec', hset', hact'.trans hact⟩

theorem nth_of_trying (hs : s.Shows p) (hrec : p.recovery = false) (h : ¬ p.Settled) (n : Nat) :
    (n < p.budget → ∃ slot, slot ≠ .r ∧ (getBootSlot true).nth n s = .ok (slot, false)) ∧
      (p.budget ≤ n → (getBootSlot true).nth n s = .ok (.r, false)) := by
  refine nth_of_countdown (I := fun k (s : Ops) => ∃ q, s.Shows q ∧ q.recovery = false ∧ ¬ q.Settled ∧ q.budget = k)
    (P := fun r => ∃ slot, slot ≠ SlotIndex.r ∧ r = .ok (slot, false))
    (Q := (· = .ok (SlotIndex.r, false))) ?_ ?_ ⟨p, hs, hrec, h, rfl⟩ n
  · rintro k s ⟨q, hq, hrec, hset, hk⟩
    obtain ⟨hout, hnext⟩ := getBootSlot_refines hq
    obtain ⟨hr, hboot, hrec', hset', hk'⟩ := Policy.boot_of_trying hrec hset hk
    rw [hboot] at hout
    exact ⟨⟨q.active, hr, hout⟩, _, hnext, hrec', hset', hk'⟩
  · rintro s ⟨q, hq, hrec, hset, hk⟩
    obtain ⟨hout, hnext⟩ := getBootSlot_refines hq
    rw [Policy.boot_of_used_up hrec hk] at hout hnext
    exact ⟨hout, q, hnext, hrec, hset, hk⟩

theorem shows_after_request (hs : s.Shows p) :
    ∃ q, ((getBootSlot true).after (wantsRecovery s.content).toNat s).Shows q ∧ q.recovery = false := by
  have hwant : wantsRecovery s.content = p.recovery := by
    obtain ⟨-, d, orig, hl, -, rfl⟩ := hs
    exact wantsRecovery_eq hl
  rw [hwant]
  cases hrec : p.recovery with
  | false => exact ⟨p, hs, hrec⟩
  | true =>
    obtain ⟨-, hnext⟩ := getBootSlot_refines hs
    refine ⟨p.boot.2, hnext, ?_⟩
    rw [Policy.boot, if_pos hrec]

theorem nth_of_not_supported (hw : s.Working) (h : ¬ Supported s.content) (n : Nat) :
    (getBootSlot true).nth n s = .ok (.r, false) ∧ ((getBootSlot true).after n s).writes = s.writes := by
  have hstep : ∀ t : Ops, t.Working ∧ ¬ Supported t.content →
      getBootSlot true t = (.ok (.r, false), t.called .readAbrMetadata) := by
    intro t ht
    refine getBootSlot_run_error (e := .unsupportedVersion) ?_ true
    rw [ht.1.record, not_not.mp ht.2]
    rfl
  have hkeep : ∀ t : Ops, t.Working ∧ ¬ Supported t.content → (getBootSlot true t).2.Working ∧
      ¬ Supported (getBootSlot true t).2.content := by
    intro t ht
    rw [hstep t ht]
    exact ⟨ht.1.called _, ht.2⟩
  refine ⟨?_, ?_⟩
  · refine nth_of_invariant (I := fun t : Ops => t.Working ∧ ¬ Supported t.content)
      (Q := (· = .ok (SlotIndex.r, false))) ?_ n ⟨hw, h⟩
    intro t ht
    exact ⟨by rw [hstep t ht], hkeep t ht⟩
  · have hall := after_keeps (m := getBootSlot true)
      (I := fun t : Ops => (t.Working ∧ ¬ Supported t.content) ∧ t.writes = s.writes) ?_ n
      (s := s) ⟨⟨hw, h⟩, rfl⟩
    · exact hall.2
    · rintro t ⟨ht, heq⟩
      refine ⟨hkeep t ht, ?_⟩
      rw [hstep t ht]
      exact heq

/-- **Booting ends well.** On a storage that works no boot panics. A record of a later version boots R each time and
is never written. Otherwise, apart from a first boot into recovery on request, either one successful slot is booted
every time, or A and B at most fourteen times together and then always R. -/
theorem boot_slots_bounded (s : Ops) (hw : s.Working) :
    (∀ n, ∃ out, (getBootSlot true).nth n s = .ok out) ∧
    (¬ Supported s.content → ∀ n, (getBootSlot true).nth n s = .ok (.r, false) ∧
      ((getBootSlot true).after n s).writes = s.writes) ∧
    (Supported s.content →
      (∀ n, n < (wantsRecovery s.content).toNat → (getBootSlot true).nth n s = .ok (.r, false)) ∧
      ((∃ slot, slot ≠ .r ∧ ∀ n, (wantsRecovery s.content).toNat ≤ n →
          (getBootSlot true).nth n s = .ok (slot, true)) ∨
        ∃ m, m ≤ 14 ∧ ∀ n, (wantsRecovery s.content).toNat ≤ n →
          (n < (wantsRecovery s.content).toNat + m →
            ∃ slot, slot ≠ .r ∧ (getBootSlot true).nth n s = .ok (slot, false)) ∧
          ((wantsRecovery s.content).toNat + m ≤ n →
            (getBootSlot true).nth n s = .ok (.r, false)))) := by
  have hshows : Supported s.content → ∃ p, s.Shows p := by
    intro hsup
    obtain ⟨d, orig, hl⟩ := exists_loaded hsup
    obtain ⟨-, hwf, -⟩ := loaded_eq_ok (fun _ => genuine_of_parse) hl
    exact ⟨d.policy hwf, hw, d, orig, hl, hwf, rfl⟩
  refine ⟨fun n => ?_, nth_of_not_supported hw, fun hsup => ⟨fun n hn => ?_, ?_⟩⟩
  · by_cases hsup : Supported s.content
    · obtain ⟨p, hp⟩ := hshows hsup
      refine nth_of_invariant (I := fun s : Ops => ∃ p, s.Shows p) (Q := fun r => ∃ out, r = .ok out)
        ?_ n ⟨p, hp⟩
      rintro t ⟨q, hq⟩
      obtain ⟨hout, hnext⟩ := getBootSlot_refines hq
      exact ⟨⟨_, hout⟩, _, hnext⟩
    · exact ⟨_, (nth_of_not_supported hw hsup n).1⟩
  · -- only a request makes room for a boot in front
    obtain ⟨p, hp⟩ := hshows hsup
    obtain ⟨-, d, orig, hl, hwf, rfl⟩ := hp
    rw [wantsRecovery_eq hl] at hn
    cases hrec : d.isOneShotRecovery with
    | false => simp [hrec] at hn
    | true =>
      have h0 : n = 0 := by simp [hrec] at hn; exact hn
      subst h0
      rw [nth_zero, getBootSlot_run_recovery hw hl hrec]
  · obtain ⟨p, hp⟩ := hshows hsup
    obtain ⟨q, hq, hrec⟩ := shows_after_request hp
    by_cases hset : q.Settled
    · obtain ⟨hr, -⟩ := Policy.boot_of_settled hrec hset
      refine Or.inl ⟨q.active, hr, fun n hn => ?_⟩
      rw [← Nat.add_sub_cancel' hn, nth_add]
      exact nth_of_settled hq hrec hset _
    · refine Or.inr ⟨q.budget, q.budget_le, fun n hn => ?_⟩
      rw [← Nat.add_sub_cancel' hn, nth_add]
      obtain ⟨hlt, hge⟩ := nth_of_trying hq hrec hset (n - (wantsRecovery s.content).toNat)
      exact ⟨fun h => hlt (by omega), fun h => hge (by omega)⟩

def blankOps : Ops := ⟨⟨List.replicate 32 0, by decide⟩, fun _ => none, []⟩

theorem boot_slots_bounded_blank : Supported blankOps.content ∧ wantsRecovery blankOps.content = false ∧
    ∀ n, ∃ out, (getBootSlot true).nth n blankOps = .ok out :=
  ⟨by decide +kernel, by decide +kernel, (boot_slots_bounded blankOps fun _ _ => rfl).1⟩

end Gbl.Abr
