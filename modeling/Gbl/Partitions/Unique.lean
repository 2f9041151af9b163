import Gbl.Partitions.Io
import Gbl.Storage.Gpt.Names

/-!
# Partitions that are found by name on all disks (`libgbl`, `partition.rs`)

`check_part_unique` asks each disk for a partition of the given name and counts the disks that have one.
-/

namespace Gbl.Partitions

open Lib Storage

def theOnly {α : Type} : List α → Result α
  | [] => err .notFound
  | [v] => .ok v
  | _ :: _ :: _ => err .notUnique

def checkPartUnique (devs : List GblDisk) (part : String) : Result (Nat × Partition) :=
  theOnly (devs.zipIdx.filterMap fun v =>
    match v.1.findPartition (some part) with
    | .ok p => some (v.2, p)
    | .error _ => none)

def onUniquePartition (part : String) (m : Exec Error (PartitionIo × Buf) Unit) :
    Exec Error (List GblDisk × Buf) Unit := fun (devs, b) =>
  match checkPartUnique devs part with
  | .error e => (.error e, (devs, b))
  | .ok (i, _) =>
    match devs[i]? with
    | none => (panic, (devs, b))
    | some g =>
      match g.partitionIo (some part) with
      | .error e => (.error e, (devs, b))
      | .ok io => ((m (io, b)).1, (devs.set i { g with disk := (m (io, b)).2.1.disk }, (m (io, b)).2.2))

def readUniquePartition (part : String) (off : Nat) : Exec Error (List GblDisk × Buf) Unit :=
  onUniquePartition part (PartitionIo.read off)

def writeUniquePartition (part : String) (off : Nat) : Exec Error (List GblDisk × Buf) Unit :=
  onUniquePartition part (PartitionIo.write off)

/-! ## What carries a name -/

namespace GblDisk

def Idle (g : GblDisk) : Prop :=
  g.partitionsBorrowed = false ∧
    match g.partitions with
    | .raw _ _ => True
    | .gpt gpt => gpt.blockSize.isSome

def carriers (g : GblDisk) (part : String) : List Partition :=
  match g.partitions with
  | .raw name size => if name = part then [.raw name size] else []
  | .gpt gpt => ((Storage.partitions gpt.primaryEntries).filter fun e => e.decodedName = part).map fun e =>
      .gpt (Storage.Partition.new e (gpt.blockSize.getD 0))

end GblDisk

def carriers (devs : List GblDisk) (part : String) : List (Nat × Partition) :=
  devs.zipIdx.flatMap fun v => (v.1.carriers part).map fun p => (v.2, p)

def reachable (part : String) : List GptEntry → Bool
  | [] => false
  | e :: es => e.decodedName.utf8ByteSize ≤ 72 && (e.decodedName = part || reachable part es)

def GblDisk.shows (g : GblDisk) (part : String) : Bool :=
  match g.partitions with
  | .raw name _ => name = part
  | .gpt gpt => reachable part (Storage.partitions gpt.primaryEntries)

def shown (devs : List GblDisk) (part : String) : Nat := devs.countP fun g => g.shows part

/-! ## Looking up -/

variable {part : String} {p : Partition} {g : GblDisk} {devs : List GblDisk}

theorem findIn_eq_ok_iff {blockSize : Nat} {es : List GptEntry} {p : Storage.Partition} :
    Gpt.findIn part blockSize es = .ok p ↔ reachable part es = true ∧
      ((es.filter fun e => e.decodedName = part).map fun e => Storage.Partition.new e blockSize).head? = some p := by
  induction es with
  | nil => exact iff_of_false nofun (by simp [reachable])
  | cons e es ih =>
    by_cases hsize : e.decodedName.utf8ByteSize ≤ 72
    · by_cases hname : e.decodedName = part
      · have hpart : part.utf8ByteSize ≤ 72 := hname ▸ hsize
        rw [findIn_cons_of_eq hsize hname]
        simp [reachable, hpart, hname]
      · rw [findIn_cons_of_ne hsize hname, ih]
        simp [reachable, hsize, hname]
    · rw [findIn_cons_of_long (Nat.not_le.mp hsize)]
      exact iff_of_false nofun (by simp [reachable, hsize])

theorem GblDisk.findPartition_eq_ok_iff (hg : g.Idle) :
    g.findPartition (some part) = .ok p ↔ g.shows part = true ∧ (g.carriers part).head? = some p := by
  obtain ⟨hborrow, hloaded⟩ := hg
  unfold GblDisk.findPartition GblDisk.shows GblDisk.carriers
  cases hp : g.partitions with
  | raw name size =>
    by_cases hname : name = part
    · simp [hborrow, hname, pure, Except.pure]
    · simp [hborrow, hname, err]
  | gpt gpt =>
    rw [hp] at hloaded
    obtain ⟨blockSize, hblock⟩ := Option.isSome_iff_exists.mp hloaded
    simp only [hborrow, hblock, Option.getD_some, Bool.false_eq_true, if_false]
    rw [Storage.findPartition_eq hblock]
    constructor
    · intro h
      obtain ⟨q, hq, h⟩ := Res.bind_eq_ok.mp h
      obtain rfl := Except.ok.inj h
      obtain ⟨hreach, hhead⟩ := findIn_eq_ok_iff.mp hq
      rw [List.head?_map, Option.map_eq_some_iff] at hhead
      obtain ⟨e, he, rfl⟩ := hhead
      exact ⟨hreach, by rw [List.head?_map, he]; rfl⟩
    · rintro ⟨hreach, hhead⟩
      rw [List.head?_map, Option.map_eq_some_iff] at hhead
      obtain ⟨e, he, rfl⟩ := hhead
      have hfound : Gpt.findIn part blockSize (Storage.partitions gpt.primaryEntries) =
          .ok (Storage.Partition.new e blockSize) :=
        findIn_eq_ok_iff.mpr ⟨hreach, by rw [List.head?_map, he]; rfl⟩
      exact Res.bind_eq_ok.mpr ⟨_, hfound, rfl⟩

theorem GblDisk.exists_carrier (h : g.shows part = true) : ∃ p rest, g.carriers part = p :: rest := by
  unfold GblDisk.shows at h
  unfold GblDisk.carriers
  cases hp : g.partitions with
  | raw name size =>
    rw [hp] at h
    simp only [decide_eq_true_eq] at h
    exact ⟨.raw name size, [], by simp [h]⟩
  | gpt gpt =>
    rw [hp] at h
    simp only at h ⊢
    generalize Storage.partitions gpt.primaryEntries = es at h ⊢
    induction es with
    | nil => simp [reachable] at h
    | cons e es ih =>
      by_cases hname : e.decodedName = part
      · exact ⟨_, _, by rw [List.filter_cons_of_pos (by simpa using hname), List.map_cons]⟩
      · simp only [reachable, Bool.and_eq_true, Bool.or_eq_true, decide_eq_true_eq, hname, false_or] at h
        rw [List.filter_cons_of_neg (by simpa using hname)]
        exact ih h.2

def reported (devs : List GblDisk) (part : String) : List (Nat × Partition) :=
  devs.zipIdx.flatMap fun v => if v.1.shows part then ((v.1.carriers part).take 1).map fun p => (v.2, p) else []

theorem checkPartUnique_eq (hidle : ∀ g ∈ devs, g.Idle) :
    checkPartUnique devs part = theOnly (reported devs part) := by
  have hreported : devs.zipIdx.filterMap (fun v =>
      match v.1.findPartition (some part) with
      | .ok p => some (v.2, p)
      | .error _ => none) = reported devs part := by
    rw [reported, List.filterMap_eq_flatMap_toList]
    refine List.flatMap_congr ?_
    rintro ⟨g, i⟩ hv
    have hg : g.Idle := hidle g (List.fst_mem_of_mem_zipIdx hv)
    by_cases hshows : g.shows part = true
    · obtain ⟨p, rest, hcarriers⟩ := GblDisk.exists_carrier hshows
      have hfind : g.findPartition (some part) = .ok p :=
        (GblDisk.findPartition_eq_ok_iff hg).mpr ⟨hshows, by rw [hcarriers]; rfl⟩
      simp [hfind, hshows, hcarriers]
    · have hfind : ∀ p, g.findPartition (some part) ≠ .ok p := by
        intro p hp
        exact hshows ((GblDisk.findPartition_eq_ok_iff hg).mp hp).1
      cases hres : g.findPartition (some part) with
      | ok p => exact absurd hres (hfind p)
      | error e => simp [hshows]
  rw [checkPartUnique, hreported]

theorem reported_sublist (devs : List GblDisk) (part : String) :
    (reported devs part).Sublist (carriers devs part) := by
  unfold reported carriers
  refine List.Sublist.flatMap_right _ ?_
  rintro ⟨g, i⟩ -
  split
  · exact (List.take_sublist 1 _).map _
  · exact List.nil_sublist _

theorem length_reported (devs : List GblDisk) (part : String) : (reported devs part).length = shown devs part := by
  unfold reported shown
  generalize 0 = n
  induction devs generalizing n with
  | nil => rfl
  | cons g devs ih =>
    rw [List.zipIdx_cons, List.flatMap_cons, List.length_append, ih, List.countP_cons]
    by_cases hshows : g.shows part = true
    · obtain ⟨p, rest, hcarriers⟩ := GblDisk.exists_carrier hshows
      simp [hshows, hcarriers, Nat.add_comm]
    · simp [hshows]

/-! ## Uniqueness -/

section TheOnly

variable {α : Type} {l l' : List α} {v : α}

theorem theOnly_eq_ok : theOnly l = .ok v ↔ l = [v] := by
  match l with
  | [] => exact iff_of_false nofun nofun
  | [w] => simp [theOnly]
  | _ :: _ :: _ => exact iff_of_false nofun nofun

theorem theOnly_eq_notUnique : theOnly l = err .notUnique ↔ 2 ≤ l.length := by
  match l with
  | [] => exact iff_of_false nofun (by simp)
  | [w] => exact iff_of_false nofun (by simp)
  | _ :: _ :: _ => exact iff_of_true rfl (by simp)

theorem theOnly_eq_notFound : theOnly l = err .notFound ↔ l = [] := by
  match l with
  | [] => exact iff_of_true rfl rfl
  | [w] => exact iff_of_false nofun nofun
  | _ :: _ :: _ => exact iff_of_false nofun nofun

theorem theOnly_eq_iff (h : l'.Sublist l) : theOnly l' = theOnly l ↔ min 2 l.length = min 2 l'.length := by
  have hle := h.length_le
  constructor
  · intro heq
    match l with
    | [] =>
      rw [theOnly_eq_notFound.mp heq]
    | [w] =>
      rw [theOnly_eq_ok.mp heq]
    | a :: b :: rest =>
      have htwo : 2 ≤ l'.length := theOnly_eq_notUnique.mp heq
      omega
  · intro hlen
    match l' with
    | [] =>
      have hnil : l = [] := by
        rw [← List.length_eq_zero_iff]
        simp only [List.length_nil] at hlen
        omega
      rw [hnil]
    | [w] =>
      have hone : l.length = 1 := by
        simp only [List.length_singleton] at hlen
        omega
      rw [h.eq_of_length (by rw [hone]; rfl)]
    | a :: b :: rest =>
      have htwo : 2 ≤ l.length := by
        simp only [List.length_cons] at hle
        omega
      rw [theOnly_eq_notUnique.mpr htwo]
      rfl

end TheOnly

structure TellsUnique (devs : List GblDisk) (part : String) : Prop where
  one : ∀ i p, checkPartUnique devs part = .ok (i, p) ↔ carriers devs part = [(i, p)]
  several : checkPartUnique devs part = err .notUnique ↔ 2 ≤ (carriers devs part).length
  none : checkPartUnique devs part = err .notFound ↔ carriers devs part = []
  untouched : 2 ≤ (carriers devs part).length → ∀ off b,
    readUniquePartition part off (devs, b) = (err .notUnique, (devs, b)) ∧
      writeUniquePartition part off (devs, b) = (err .notUnique, (devs, b))

theorem onUniquePartition_error {e : Stop Error} (h : checkPartUnique devs part = .error e)
    (m : Exec Error (PartitionIo × Buf) Unit) (b : Buf) :
    onUniquePartition part m (devs, b) = (.error e, (devs, b)) := by
  simp only [onUniquePartition, h]

theorem tellsUnique_iff_theOnly :
    TellsUnique devs part ↔ checkPartUnique devs part = theOnly (carriers devs part) := by
  constructor
  · intro h
    match hcarriers : carriers devs part with
    | [] => exact h.none.mpr hcarriers
    | [v] => exact (h.one v.1 v.2).mpr hcarriers
    | _ :: _ :: _ => exact h.several.mpr (by simp [hcarriers])
  · intro h
    refine ⟨fun i p => by rw [h, theOnly_eq_ok], by rw [h, theOnly_eq_notUnique], by rw [h, theOnly_eq_notFound], ?_⟩
    intro htwo off b
    rw [theOnly_eq_notUnique.mpr htwo] at h
    exact ⟨onUniquePartition_error h _ b, onUniquePartition_error h _ b⟩

theorem findPartition_of_checkPartUnique {i : Nat} (h : checkPartUnique devs part = .ok (i, p)) :
    ∃ g, devs[i]? = some g ∧ g.findPartition (some part) = .ok p := by
  have hmem : (i, p) ∈ devs.zipIdx.filterMap (fun v =>
      match v.1.findPartition (some part) with
      | .ok p => some (v.2, p)
      | .error _ => none) := by
    rw [theOnly_eq_ok.mp h]
    exact List.mem_singleton.mpr rfl
  obtain ⟨⟨g, j⟩, hg, hfind⟩ := List.mem_filterMap.mp hmem
  cases hres : g.findPartition (some part) with
  | error e => simp [hres] at hfind
  | ok q =>
    simp only [hres, Option.some.injEq, Prod.mk.injEq] at hfind
    obtain ⟨rfl, rfl⟩ := hfind
    exact ⟨g, List.mem_zipIdx_iff_getElem?.mp hg, hres⟩

/-- **Unique means unique, where it is seen.** The search over idle disks tells none, one and several
carriers of a name apart if and only if the number of disks that show the name tells them apart: a disk
shows one carrier at most, and none that stands behind a name of more than 72 bytes. -/
theorem tells_unique_iff (devs : List GblDisk) (part : String) (hidle : ∀ g ∈ devs, g.Idle) :
    TellsUnique devs part ↔ min 2 (carriers devs part).length = min 2 (shown devs part) := by
  rw [tellsUnique_iff_theOnly, checkPartUnique_eq hidle, theOnly_eq_iff (reported_sublist devs part),
    length_reported]

/-! ## Two tables -/

def tableDisk (table : List GptEntry) (h : table.length ≤ gptMaxNumEntries) : GblDisk :=
  ⟨sampleDisk [], false, .gpt (loadedGpt table h), false, sampleInfo⟩

theorem tableDisk_idle (table : List GptEntry) (h : table.length ≤ gptMaxNumEntries) : (tableDisk table h).Idle :=
  ⟨rfl, rfl⟩

theorem tells_unique_boot : TellsUnique [tableDisk [bootEntry] (by decide)] "boot" := by
  have hparts : Storage.partitions (loadedGpt [bootEntry] (by decide)).primaryEntries = [bootEntry] := by decide
  have hcarriers : (tableDisk [bootEntry] (by decide)).carriers "boot" =
      [.gpt (Storage.Partition.new bootEntry 128)] := by
    show ((Storage.partitions _).filter _).map _ = _
    rw [hparts, List.filter_cons_of_pos (by simpa using decodedName_bootEntry)]
    rfl
  have hshows : (tableDisk [bootEntry] (by decide)).shows "boot" = true := by
    show reachable "boot" (Storage.partitions _) = true
    rw [hparts, reachable, decodedName_bootEntry]
    decide
  refine (tells_unique_iff _ _ ?_).2 ?_
  · intro g hg
    obtain rfl := List.mem_singleton.mp hg
    exact tableDisk_idle _ _
  · simp [carriers, hcarriers, shown, hshows]

def twinEntry : GptEntry := { sampleEntry 140 149 with name := nameField [0x62, 0x6F, 0x6F, 0x74] }

theorem decodedName_twinEntry : twinEntry.decodedName = "boot" := by
  have hchars : twinEntry.nameChars = "boot".toList := by decide
  rw [GptEntry.decodedName, hchars, String.ofList_toList]

def twinDisk : GblDisk := tableDisk [twinEntry, bootEntry] (by decide)

theorem carriers_twinDisk : carriers [twinDisk] "boot" =
      [(0, .gpt (Storage.Partition.new twinEntry 128)), (0, .gpt (Storage.Partition.new bootEntry 128))] := by
  have hparts : Storage.partitions (loadedGpt [twinEntry, bootEntry] (by decide)).primaryEntries =
      [twinEntry, bootEntry] := by decide
  have hdisk : twinDisk.carriers "boot" =
      [.gpt (Storage.Partition.new twinEntry 128), .gpt (Storage.Partition.new bootEntry 128)] := by
    show ((Storage.partitions _).filter _).map _ = _
    rw [hparts, List.filter_cons_of_pos (by simpa using decodedName_twinEntry),
      List.filter_cons_of_pos (by simpa using decodedName_bootEntry)]
    rfl
  simp [carriers, hdisk]

/-- A table that passes both checks has two partitions `boot`. The first one is taken for the only one. -/
theorem twins_not_told :
    checkHeader referencePlatform sampleInfo (sampleHeader 1 299 130 170 2 [twinEntry, bootEntry]) .primary =
        .ok () ∧
      checkEntries referencePlatform (sampleHeader 1 299 130 170 2 [twinEntry, bootEntry])
        (GptEntry.codec.encAll [twinEntry, bootEntry]) = .ok () ∧
      (carriers [twinDisk] "boot").length = 2 ∧
      checkPartUnique [twinDisk] "boot" = .ok (0, .gpt (Storage.Partition.new twinEntry 128)) ∧
      ¬ TellsUnique [twinDisk] "boot" := by
  have hfind : twinDisk.findPartition (some "boot") = .ok (.gpt (Storage.Partition.new twinEntry 128)) := by
    have hparts : Storage.partitions (loadedGpt [twinEntry, bootEntry] (by decide)).primaryEntries =
        [twinEntry, bootEntry] := by decide
    have hsearch : (loadedGpt [twinEntry, bootEntry] (by decide)).findPartition "boot" =
        .ok (Storage.Partition.new twinEntry 128) := by
      rw [findPartition_eq rfl, hparts]
      exact findIn_cons_of_eq (by rw [decodedName_twinEntry]; decide) decodedName_twinEntry
    exact Res.bind_eq_ok.mpr ⟨_, hsearch, rfl⟩
  have hcheck : checkPartUnique [twinDisk] "boot" = .ok (0, .gpt (Storage.Partition.new twinEntry 128)) := by
    simp [checkPartUnique, hfind, theOnly]
  refine ⟨by decide +kernel, by decide +kernel, by rw [carriers_twinDisk]; rfl, hcheck, ?_⟩
  intro h
  have hone := (h.one _ _).mp hcheck
  rw [carriers_twinDisk] at hone
  cases hone

end Gbl.Partitions
