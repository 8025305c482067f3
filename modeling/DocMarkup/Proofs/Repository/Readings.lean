import DocMarkup.Proofs.Repository.Layout
import DocMarkup.Repository.Resolution

/-!
Readings of identifiers.

An identifier may be read in several ways: in one namespace or another, with one prefix cut off or
another. Readings come in an order, and resolution takes the first one that means an entity.
-/

namespace DocMarkup

theorem pairwise_mergeSort_of_pairwise {α : Type} {le : α → α → Bool} {before : α → α → Prop}
    {items : List α} (trans : ∀ a b c, le a b = true → le b c = true → le a c = true)
    (total : ∀ a b, (le a b || le b a) = true) (hitems : items.Pairwise before) :
    (items.mergeSort le).Pairwise fun first second =>
      le first second = true ∧ (le second first = true → before first second) := by
  -- Items may be equal, so they are sorted together with their places, which are not.
  rw [← List.mergeSort_zipIdx, List.pairwise_map]
  have hsorted := List.pairwise_mergeSort (List.zipIdxLE_trans trans) (List.zipIdxLE_total total)
    items.zipIdx
  have hnodup : (items.zipIdx.mergeSort (List.zipIdxLE le)).Nodup := by
    refine (List.mergeSort_perm _ _).nodup_iff.mpr (List.Nodup.of_map Prod.snd ?_)
    rw [List.zipIdx_map_snd]
    exact List.nodup_range'
  refine (hsorted.and hnodup).imp_of_mem fun {first second} hfirst hsecond ⟨hle, hne⟩ => ?_
  rw [List.mem_mergeSort, List.mem_zipIdx_iff_getElem?, List.getElem?_eq_some_iff] at hfirst hsecond
  obtain ⟨hfirst, heqFirst⟩ := hfirst
  obtain ⟨hsecond, heqSecond⟩ := hsecond
  simp only [List.zipIdxLE, Bool.if_false_right, Bool.and_eq_true, decide_eq_true_eq] at hle
  refine ⟨hle.1, fun hback => ?_⟩
  have hplace : first.2 ≤ second.2 := by simpa [hback] using hle.2
  have hlt : first.2 < second.2 := by
    refine Nat.lt_of_le_of_ne hplace fun heq => hne (Prod.ext ?_ heq)
    rw [← heqFirst, ← heqSecond]
    simp only [heq]
  rw [← heqFirst, ← heqSecond]
  exact List.pairwise_iff_getElem.mp hitems _ _ hfirst hsecond hlt

theorem findSome?_eq_some_iff_of_pairwise {α β : Type} {before : α → α → Prop} {items : List α}
    (hordered : items.Pairwise before) (asymm : ∀ a b, before a b → ¬ before b a)
    {look : α → Option β} {result : β} :
    items.findSome? look = some result ↔
      ∃ item ∈ items, look item = some result ∧
        ∀ other ∈ items, before other item → look other = none := by
  constructor
  · intro h
    obtain ⟨earlier, item, later, rfl, hitem, hearlier⟩ := List.findSome?_eq_some_iff.mp h
    refine ⟨item, by simp, hitem, fun other hother hbefore => ?_⟩
    rcases List.mem_append.mp hother with hother | hother
    · exact hearlier other hother
    · rcases List.mem_cons.mp hother with rfl | hother
      · exact absurd hbefore (asymm _ _ hbefore)
      · obtain ⟨hlater, -⟩ := List.pairwise_cons.mp (List.pairwise_append.mp hordered).2.1
        exact absurd hbefore (asymm _ _ (hlater other hother))
  · rintro ⟨item, hmem, hitem, hfirst⟩
    obtain ⟨earlier, later, rfl⟩ := List.append_of_mem hmem
    refine List.findSome?_eq_some_iff.mpr ⟨earlier, item, later, rfl, hitem, fun other hother => ?_⟩
    exact hfirst other (List.mem_append_left _ hother)
      ((List.pairwise_append.mp hordered).2.2 other hother item List.mem_cons_self)

namespace Repository

/-- A way to read an identifier: a namespace, a prefix that is declared there with its place among
the others, and the name that is left. -/
structure Reading (repo : Repository) where
  space : repo.SpaceId
  place : Nat
  start : String
  name : String

variable {repo : Repository}

namespace Reading

/-- Namespaces come in their order, and in each of them longer prefixes first, in bytes and as they
are written. Prefixes of one length come in the order in which they are declared. -/
inductive Before : repo.Reading → repo.Reading → Prop
  | space {first second : repo.Reading} (h : first.space < second.space) : Before first second
  | longer {first second : repo.Reading} (hspace : first.space = second.space)
      (h : second.start.utf8ByteSize < first.start.utf8ByteSize) : Before first second
  | place {first second : repo.Reading} (hspace : first.space = second.space)
      (hsize : first.start.utf8ByteSize = second.start.utf8ByteSize)
      (h : first.place < second.place) : Before first second

theorem Before.asymm (first second : repo.Reading) (h : Before first second) :
    ¬ Before second first := by
  intro hback
  cases h <;> cases hback <;> grind

end Reading

/-- The entity is meant by the first reading that means one. -/
def FirstOf (readings : repo.Reading → Prop) (means : repo.Reading → repo.Ref → Prop)
    (ref : repo.Ref) : Prop :=
  ∃ reading, readings reading ∧ means reading ref ∧
    ∀ other, readings other → other.Before reading → ∀ another, ¬ means other another

/-- The list has just these readings, in their order. -/
structure Lists (listed : List repo.Reading) (readings : repo.Reading → Prop) : Prop where
  ordered : listed.Pairwise Reading.Before
  mem_iff : ∀ reading, reading ∈ listed ↔ readings reading

section

variable {listed : List repo.Reading} {readings : repo.Reading → Prop}
  {look : repo.Reading → Option repo.Ref} {means : repo.Reading → repo.Ref → Prop}

theorem Lists.findSome?_eq_some_iff (h : Lists listed readings)
    (hlook : ∀ reading ref, look reading = some ref ↔ means reading ref) {ref : repo.Ref} :
    listed.findSome? look = some ref ↔ FirstOf readings means ref := by
  rw [findSome?_eq_some_iff_of_pairwise h.ordered Reading.Before.asymm]
  simp only [FirstOf, h.mem_iff, hlook, Option.eq_none_iff_forall_ne_some, ne_eq]

theorem Lists.findSome?_eq_none_iff (h : Lists listed readings) :
    listed.findSome? look = none ↔ ∀ reading, readings reading → look reading = none := by
  simp only [List.findSome?_eq_none_iff, h.mem_iff]

end

def placedPrefixes (starts : List String) : List (String × Nat) :=
  (starts.zipIdx.filter fun entry => entry.1 ≠ "").mergeSort fun first second =>
    decide (second.1.utf8ByteSize ≤ first.1.utf8ByteSize)

theorem map_fst_placedPrefixes (starts : List String) :
    (placedPrefixes starts).map Prod.fst = longestFirst starts := by
  have hstarts : (starts.zipIdx.filter fun entry => entry.1 ≠ "").map Prod.fst =
      starts.filter fun start => start ≠ "" := by
    calc
      _ = (starts.zipIdx.map Prod.fst).filter fun start => start ≠ "" := by
          rw [List.filter_map]
          rfl
      _ = _ := by rw [List.zipIdx_map_fst]
  rw [longestFirst, ← hstarts]
  exact List.map_mergeSort fun _ _ _ _ => rfl

theorem mem_placedPrefixes_iff {starts : List String} {start : String} {place : Nat} :
    (start, place) ∈ placedPrefixes starts ↔ starts[place]? = some start ∧ start ≠ "" := by
  rw [placedPrefixes, List.mem_mergeSort, List.mem_filter, List.mem_zipIdx_iff_getElem?,
    decide_eq_true_eq]

theorem ordered_placedPrefixes (starts : List String) :
    (placedPrefixes starts).Pairwise fun first second =>
      second.1.utf8ByteSize ≤ first.1.utf8ByteSize ∧
        (first.1.utf8ByteSize ≤ second.1.utf8ByteSize → first.2 < second.2) := by
  have hplaces : (starts.zipIdx.filter fun entry => entry.1 ≠ "").Pairwise
      fun first second => first.2 < second.2 := by
    refine List.Pairwise.filter _ (List.pairwise_map.mp ?_)
    rw [List.zipIdx_map_snd]
    exact List.pairwise_lt_range'
  refine (pairwise_mergeSort_of_pairwise ?_ ?_ hplaces).imp fun h => ?_
  · intro first second third hfirst hsecond
    simp only [decide_eq_true_eq] at hfirst hsecond ⊢
    exact Nat.le_trans hsecond hfirst
  · intro first second
    simpa using Nat.le_total _ _
  · simpa only [decide_eq_true_eq] using h

/-- The readings with the prefixes of a namespace, where `cut` gives what is left after one. -/
def readingsAfter (space : repo.SpaceId) (starts : List String) (cut : String → Option String) :
    List repo.Reading :=
  (placedPrefixes starts).filterMap fun (start, place) =>
    (cut start).map (⟨space, place, start, ·⟩)

section

variable {space : repo.SpaceId} {starts : List String} {cut : String → Option String}

theorem map_name_readingsAfter :
    (readingsAfter space starts cut).map Reading.name = (longestFirst starts).filterMap cut := by
  rw [← map_fst_placedPrefixes, List.filterMap_map, readingsAfter, List.map_filterMap]
  refine List.filterMap_congr fun entry _ => ?_
  simp [Function.comp_def]

theorem mem_readingsAfter_iff {reading : repo.Reading} :
    reading ∈ readingsAfter space starts cut ↔
      reading.space = space ∧ starts[reading.place]? = some reading.start ∧
        reading.start ≠ "" ∧ cut reading.start = some reading.name := by
  obtain ⟨other, place, start, name⟩ := reading
  simp only [readingsAfter, List.mem_filterMap, Prod.exists, mem_placedPrefixes_iff,
    Option.map_eq_some_iff, Reading.mk.injEq]
  constructor
  · rintro ⟨_, _, ⟨hplace, hstart⟩, _, hcut, rfl, rfl, rfl, rfl⟩
    exact ⟨rfl, hplace, hstart, hcut⟩
  · rintro ⟨rfl, hplace, hstart, hcut⟩
    exact ⟨start, place, ⟨hplace, hstart⟩, name, hcut, rfl, rfl, rfl, rfl⟩

theorem ordered_readingsAfter : (readingsAfter space starts cut).Pairwise Reading.Before := by
  refine List.pairwise_filterMap.mpr ((ordered_placedPrefixes starts).imp ?_)
  rintro ⟨start, place⟩ ⟨other, next⟩ ⟨hle, hplace⟩ reading hreading another hanother
  obtain ⟨name, -, rfl⟩ := Option.map_eq_some_iff.mp hreading
  obtain ⟨name, -, rfl⟩ := Option.map_eq_some_iff.mp hanother
  rcases Nat.lt_or_eq_of_le hle with hlt | heq
  · exact .longer rfl hlt
  · exact .place rfl heq.symm (hplace (Nat.le_of_eq heq.symm))

end

theorem Lists.flatMap {inSpace : repo.SpaceId → List repo.Reading}
    {readings : repo.Reading → Prop}
    (h : ∀ space, Lists (inSpace space) fun reading => reading.space = space ∧ readings reading) :
    Lists (repo.spaceIds.flatMap inSpace) readings where
  ordered := by
    refine List.pairwise_flatMap.mpr ⟨fun space _ => (h space).ordered, ?_⟩
    refine (List.pairwise_lt_finRange _).imp fun {space other} hlt first hfirst second hsecond => ?_
    obtain ⟨rfl, -⟩ := (h space).mem_iff first |>.mp hfirst
    obtain ⟨rfl, -⟩ := (h other).mem_iff second |>.mp hsecond
    exact .space hlt
  mem_iff reading := by
    simp only [List.mem_flatMap, (h _).mem_iff]
    exact ⟨fun ⟨_, _, _, hreading⟩ => hreading,
      fun hreading => ⟨reading.space, List.mem_finRange _, rfl, hreading⟩⟩

theorem map_flatMap_readings {inSpace : repo.SpaceId → List repo.Reading}
    {names : Namespace → List String}
    (hspace : ∀ space, ∀ reading ∈ inSpace space, reading.space = space)
    (hnames : ∀ space, (inSpace space).map Reading.name = names (repo.space space)) :
    (repo.spaceIds.flatMap inSpace).map (fun reading => (reading.space, reading.name)) =
      repo.candidates names := by
  rw [candidates, List.map_flatMap]
  refine List.flatMap_congr fun space _ => ?_
  rw [← hnames, List.map_map]
  exact List.map_congr_left fun reading hmem => by rw [hspace space reading hmem]; rfl

structure LastIn (space : repo.SpaceId) (test : repo.Ref → Prop) (ref : repo.Ref) : Prop where
  space_eq : ref.space = space
  holds : test ref
  last : ∀ later : repo.Ref, later.space = space → ref.id.val < later.id.val → ¬ test later

theorem findLast?_eq_some_iff_lastIn {space : repo.SpaceId} {test : Entity → Bool}
    {ref : repo.Ref} :
    ((repo.space space).findLast? test).map (⟨space, ·⟩) = some ref ↔
      LastIn space (fun ref => test ref.entity = true) ref := by
  constructor
  · intro h
    obtain ⟨id, hid, rfl⟩ := Option.map_eq_some_iff.mp h
    obtain ⟨htest, hlast⟩ := Namespace.findLast?_eq_some_iff.mp hid
    refine ⟨rfl, htest, ?_⟩
    rintro ⟨_, later⟩ rfl hlater
    exact Bool.eq_false_iff.mp (hlast later hlater)
  · obtain ⟨other, id⟩ := ref
    rintro ⟨rfl, htest, hlast⟩
    refine Option.map_eq_some_iff.mpr ⟨id, Namespace.findLast?_eq_some_iff.mpr ⟨htest, ?_⟩, rfl⟩
    exact fun later hlater => Bool.eq_false_iff.mpr (hlast ⟨other, later⟩ rfl hlater)

theorem findLast?_eq_none_iff_forall {space : repo.SpaceId} {test : Entity → Bool} :
    ((repo.space space).findLast? test).map (Ref.mk space) = none ↔
      ∀ ref : repo.Ref, ref.space = space → ¬ test ref.entity = true := by
  rw [Option.map_eq_none_iff, Namespace.findLast?_eq_none_iff]
  constructor
  · rintro h ⟨_, id⟩ rfl
    exact Bool.eq_false_iff.mp (h id)
  · exact fun h id => Bool.eq_false_iff.mpr (h ⟨space, id⟩ rfl)

def Ref.IsTop (name : String) (ref : repo.Ref) : Prop :=
  ref.parent? = none ∧ ref.entity.name = name

theorem Ref.isTop_iff {name : String} {ref : repo.Ref} :
    (ref.entity.parent.isNone && ref.entity.name == name) = true ↔ ref.IsTop name := by
  simp only [Bool.and_eq_true, Option.isNone_iff_eq_none, beq_iff_eq, IsTop, Ref.parent?,
    Option.map_eq_none_iff, Namespace.parent?_eq_none_iff, Ref.entity]

theorem get?_eq_some_iff_lastIn {space : repo.SpaceId} {name : String} {ref : repo.Ref} :
    repo.get? space name = some ref ↔ LastIn space (Ref.IsTop name) ref := by
  rw [Repository.get?, Namespace.get?, findLast?_eq_some_iff_lastIn]
  simp only [Ref.isTop_iff]

theorem get?_eq_none_iff_forall {space : repo.SpaceId} {name : String} :
    repo.get? space name = none ↔ ∀ ref : repo.Ref, ref.space = space → ¬ ref.IsTop name := by
  rw [Repository.get?, Namespace.get?, findLast?_eq_none_iff_forall]
  simp only [Ref.isTop_iff]

theorem withSymbol?_eq_some_iff_lastIn {space : repo.SpaceId} {symbol : String}
    {ref : repo.Ref} :
    repo.withSymbol? space symbol = some ref ↔
      LastIn space (fun ref => ref.entity.symbol = some symbol) ref := by
  rw [Repository.withSymbol?, Namespace.withSymbol?, findLast?_eq_some_iff_lastIn]
  simp only [beq_iff_eq]

theorem withSymbol?_eq_none_iff_forall {space : repo.SpaceId} {symbol : String} :
    repo.withSymbol? space symbol = none ↔
      ∀ ref : repo.Ref, ref.space = space → ref.entity.symbol ≠ some symbol := by
  rw [Repository.withSymbol?, Namespace.withSymbol?, findLast?_eq_none_iff_forall]
  simp only [beq_iff_eq, ne_eq]

end Repository

end DocMarkup
