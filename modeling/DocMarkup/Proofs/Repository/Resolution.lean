import DocMarkup.Proofs.Repository.Readings
import DocMarkup.Proofs.Text.Slices
import Mathlib.Data.List.DropRight

/-!
What an identifier means.

A type name means the top-level entity with the name that is left by its first reading that names
one. A symbol means the entity that carries it in the first namespace in which it can be read and
that has one; only if there is none, it is taken like a type name. The names that are left of a
symbol are slices of it, and it is never cut inside a character.
-/

namespace DocMarkup

namespace Repository

variable {repo : Repository}

/-- How a type name can be read: as it is where no prefix is declared, or else after a prefix. -/
inductive OfType (identifier : String) : repo.Reading → Prop
  | whole {space : repo.SpaceId} (h : ∀ start ∈ (repo.space space).identifierPrefixes, start = "") :
      OfType identifier ⟨space, 0, "", identifier⟩
  | after {space : repo.SpaceId} {place : Nat} {start name : String}
      (hplace : (repo.space space).identifierPrefixes[place]? = some start) (hstart : start ≠ "")
      (hname : name ≠ "") (h : identifier = start ++ name) :
      OfType identifier ⟨space, place, start, name⟩

def nameAfter? (identifier start : String) : Option String :=
  match Text.afterChars? start.toList identifier.toList with
  | some [] => none
  | some rest => some (String.ofList rest)
  | none => none

theorem nameAfter?_eq_some_iff {identifier start name : String} :
    nameAfter? identifier start = some name ↔ name ≠ "" ∧ identifier = start ++ name := by
  have hsplit : identifier = start ++ name ↔
      Text.afterChars? start.toList identifier.toList = some name.toList := by
    rw [Text.afterChars?_eq_some_iff, ← String.toList_inj, String.toList_append]
  rw [hsplit, nameAfter?, ne_eq, ← String.toList_eq_nil_iff]
  split
  · rename_i h
    rw [h, Option.some.injEq]
    exact iff_of_false (fun h => nomatch h) fun ⟨hname, heq⟩ => hname heq.symm
  · rename_i rest hrest h
    rw [h, Option.some.injEq, Option.some.injEq, ← String.toList_inj, String.toList_ofList]
    exact ⟨fun heq => ⟨heq ▸ hrest, heq⟩, And.right⟩
  · rename_i h
    simp [h]

def typeReadings (identifier : String) (space : repo.SpaceId) : List repo.Reading :=
  if (repo.space space).identifierPrefixes.all (· == "") then [⟨space, 0, "", identifier⟩]
  else readingsAfter space (repo.space space).identifierPrefixes (nameAfter? identifier)

theorem map_name_typeReadings (identifier : String) (space : repo.SpaceId) :
    (typeReadings identifier space).map Reading.name = typeNames (repo.space space) identifier := by
  rw [typeReadings, typeNames]
  split
  · rfl
  · exact map_name_readingsAfter

theorem lists_typeReadings (identifier : String) (space : repo.SpaceId) :
    Lists (typeReadings identifier space) fun reading =>
      reading.space = space ∧ OfType identifier reading := by
  rw [typeReadings]
  split
  · rename_i h
    have hempty : ∀ start ∈ (repo.space space).identifierPrefixes, start = "" :=
      fun start hmem => eq_of_beq (List.all_eq_true.mp h start hmem)
    refine ⟨List.pairwise_singleton _ _, fun reading => List.mem_singleton.trans ⟨?_, ?_⟩⟩
    · rintro rfl
      exact ⟨rfl, .whole hempty⟩
    · rintro ⟨rfl, hreading | ⟨hplace, hstart, -, -⟩⟩
      · rfl
      · exact absurd (hempty _ (List.mem_of_getElem? hplace)) hstart
  · rename_i h
    refine ⟨ordered_readingsAfter, fun reading => mem_readingsAfter_iff.trans ?_⟩
    rw [nameAfter?_eq_some_iff]
    constructor
    · rintro ⟨rfl, hplace, hstart, hname, heq⟩
      exact ⟨rfl, .after hplace hstart hname heq⟩
    · rintro ⟨rfl, hempty | ⟨hplace, hstart, hname, heq⟩⟩
      · exact absurd (List.all_eq_true.mpr fun start hmem => beq_iff_eq.mpr (hempty start hmem)) h
      · exact ⟨rfl, hplace, hstart, hname, heq⟩

/-- What is left of a prefix without the underscores that it ends in. -/
structure Trimmed (start : String) (trimmed : List Char) : Prop where
  eq_append : ∃ count, start.toList = trimmed ++ List.replicate count '_'
  getLast?_ne : trimmed.getLast? ≠ some '_'

/-- How a symbol can be read: after a prefix and an underscore. The prefix is taken in any case of
ASCII letters and without the underscores that it ends in. -/
structure OfSymbol (symbol : String) (reading : repo.Reading) : Prop where
  declared : (repo.space reading.space).symbolPrefixes[reading.place]? = some reading.start
  name_ne : reading.name ≠ ""
  split : ∃ trimmed written, Trimmed reading.start trimmed ∧ trimmed ≠ [] ∧
    Text.sameIgnoringAsciiCase written trimmed = true ∧
      symbol.toList = written ++ '_' :: reading.name.toList

theorem trimUnderscores_eq_iff {start : String} {trimmed : List Char} :
    trimUnderscores start = trimmed ↔ Trimmed start trimmed := by
  have hdef : trimUnderscores start = start.toList.rdropWhile (· == '_') := rfl
  rw [hdef]
  constructor
  · rintro rfl
    refine ⟨⟨(start.toList.rtakeWhile (· == '_')).length, ?_⟩, fun hlast => ?_⟩
    · have hchars : ∀ char ∈ start.toList.rtakeWhile (· == '_'), char = '_' := by
        intro char hmem
        have hchar := List.mem_rtakeWhile_imp hmem
        exact eq_of_beq hchar
      rw [← List.eq_replicate_of_mem hchars, List.rdropWhile_append_rtakeWhile]
    · have hne := List.ne_nil_of_mem (List.mem_of_getLast? hlast)
      rw [List.getLast?_eq_some_getLast hne, Option.some.injEq] at hlast
      exact List.rdropWhile_last_not _ _ hne (beq_iff_eq.mpr hlast)
  · rintro ⟨⟨count, hstart⟩, hlast⟩
    rw [hstart, List.rdropWhile, List.reverse_append, List.dropWhile_append_of_pos (by simp)]
    refine List.rdropWhile_eq_self_iff.mpr fun hne hchar => hlast ?_
    rw [List.getLast?_eq_some_getLast hne, eq_of_beq hchar]

theorem afterSymbolPrefix?_eq_some_iff {start symbol rest : List Char} :
    afterSymbolPrefix? start symbol = some rest ↔
      rest ≠ [] ∧ ∃ written, Text.sameIgnoringAsciiCase written start = true ∧
        symbol = written ++ '_' :: rest := by
  simp only [Text.sameIgnoringAsciiCase, beq_iff_eq]
  induction start generalizing symbol with
  | nil =>
      simp only [List.map_nil, List.map_eq_nil_iff, exists_eq_left, List.nil_append]
      rw [afterSymbolPrefix?.eq_def]
      split
      · rw [Option.some.injEq, List.cons.injEq]
        exact ⟨fun heq => ⟨heq ▸ List.cons_ne_nil _ _, rfl, heq⟩, fun ⟨_, _, heq⟩ => heq⟩
      · rename_i h
        refine iff_of_false (fun h => nomatch h) fun ⟨hrest, heq⟩ => ?_
        obtain ⟨char, rest, rfl⟩ := List.exists_cons_of_ne_nil hrest
        exact h char rest heq
      · contradiction
      · contradiction
  | cons first start ih =>
      cases symbol with
      | nil => simp [afterSymbolPrefix?]
      | cons char symbol =>
          rw [afterSymbolPrefix?]
          split
          · rename_i h
            rw [ih]
            constructor
            · rintro ⟨hrest, written, hsame, rfl⟩
              exact ⟨hrest, char :: written, by rw [List.map_cons, List.map_cons, hsame, h], rfl⟩
            · rintro ⟨hrest, written, hsame, hsymbol⟩
              obtain ⟨_, written, rfl, -, hsame⟩ := List.map_eq_cons_iff.mp hsame
              exact ⟨hrest, written, hsame, (List.cons.inj hsymbol).2⟩
          · rename_i h
            refine iff_of_false (fun h => nomatch h) fun ⟨_, written, hsame, hsymbol⟩ => h ?_
            obtain ⟨_, written, rfl, hchar, -⟩ := List.map_eq_cons_iff.mp hsame
            rw [(List.cons.inj hsymbol).1, hchar]

def nameAfterSymbolPrefix? (symbol start : String) : Option String :=
  match trimUnderscores start with
  | [] => none
  | start => (afterSymbolPrefix? start symbol.toList).map String.ofList

theorem nameAfterSymbolPrefix?_eq_some_iff {symbol start name : String} :
    nameAfterSymbolPrefix? symbol start = some name ↔
      name ≠ "" ∧ ∃ trimmed written, Trimmed start trimmed ∧ trimmed ≠ [] ∧
        Text.sameIgnoringAsciiCase written trimmed = true ∧
          symbol.toList = written ++ '_' :: name.toList := by
  have hrest {rest : Option (List Char)} :
      rest.map String.ofList = some name ↔ rest = some name.toList := by
    rw [Option.map_eq_some_iff]
    constructor
    · rintro ⟨chars, rfl, rfl⟩
      rw [String.toList_ofList]
    · rintro rfl
      exact ⟨_, rfl, String.ofList_toList⟩
  rw [nameAfterSymbolPrefix?]
  split
  · rename_i hempty
    refine iff_of_false (fun h => nomatch h) fun ⟨_, trimmed, _, htrimmed, hne, _⟩ => hne ?_
    rw [← trimUnderscores_eq_iff.mpr htrimmed, hempty]
  · rename_i hne
    rw [hrest, afterSymbolPrefix?_eq_some_iff, ne_eq, String.toList_eq_nil_iff]
    refine and_congr_right fun _ => ⟨?_, ?_⟩
    · rintro ⟨written, hsame, hsymbol⟩
      exact ⟨_, written, trimUnderscores_eq_iff.mp rfl, hne, hsame, hsymbol⟩
    · rintro ⟨trimmed, written, htrimmed, -, hsame, hsymbol⟩
      obtain rfl := trimUnderscores_eq_iff.mpr htrimmed
      exact ⟨written, hsame, hsymbol⟩

def symbolReadings (symbol : String) (space : repo.SpaceId) : List repo.Reading :=
  readingsAfter space (repo.space space).symbolPrefixes (nameAfterSymbolPrefix? symbol)

theorem map_name_symbolReadings (symbol : String) (space : repo.SpaceId) :
    (symbolReadings symbol space).map Reading.name = symbolNames (repo.space space) symbol :=
  map_name_readingsAfter

theorem lists_symbolReadings (symbol : String) (space : repo.SpaceId) :
    Lists (symbolReadings symbol space) fun reading =>
      reading.space = space ∧ OfSymbol symbol reading := by
  refine ⟨ordered_readingsAfter, fun reading => mem_readingsAfter_iff.trans ?_⟩
  rw [nameAfterSymbolPrefix?_eq_some_iff]
  constructor
  · rintro ⟨rfl, hplace, -, hname, hsplit⟩
    exact ⟨rfl, hplace, hname, hsplit⟩
  · rintro ⟨rfl, hplace, hname, hsplit⟩
    refine ⟨rfl, hplace, fun hstart => ?_, hname, hsplit⟩
    obtain ⟨trimmed, -, ⟨⟨count, heq⟩, -⟩, hne, -⟩ := hsplit
    rw [hstart, String.toList_empty, List.nil_eq_append_iff] at heq
    exact hne heq.1

theorem utf8EncodeChar_underscore : String.utf8EncodeChar '_' = ['_'.toUInt8] :=
  rfl

/-- What is left of a symbol after a prefix, where both are cut by bytes. There is no result where
the symbol would be cut inside a character or where it has no more bytes. -/
def sliceAfter? (start symbol : List Char) : Option (Option (List Char)) :=
  let size := Grammar.byteLength start
  if size = 0 ∨ Grammar.byteLength symbol ≤ size + 1 ∨ Text.cutAt? size symbol = none then some none
  else do
    let (written, _) ← Text.cutAt? size symbol
    if Text.sameIgnoringAsciiCase written start then
      let byte ← (Text.bytes symbol)[size]?
      if byte = '_'.toUInt8 then
        let (_, rest) ← Text.cutAt? (size + 1) symbol
        return some rest
      else return none
    else return none

/-- Only what follows as many bytes as the prefix has can be left. -/
theorem afterSymbolPrefix?_append {start written after : List Char}
    (h : Grammar.byteLength written = Grammar.byteLength start) :
    afterSymbolPrefix? start (written ++ after) =
      if Text.sameIgnoringAsciiCase written start then afterSymbolPrefix? [] after else none := by
  refine Option.ext fun rest => ?_
  simp only [Option.ite_none_right_eq_some, afterSymbolPrefix?_eq_some_iff]
  constructor
  · rintro ⟨hrest, other, hsame, heq⟩
    have hcut := Text.cutAt?_eq_some_iff.mpr ⟨heq, Text.byteLength_eq_of_same hsame⟩
    rw [← h, Text.cutAt?_byteLength] at hcut
    cases hcut
    exact ⟨hsame, hrest, [], rfl, rfl⟩
  · rintro ⟨hsame, hrest, other, hother, rfl⟩
    obtain rfl : other = [] := List.map_eq_nil_iff.mp (eq_of_beq hother)
    exact ⟨hrest, written, hsame, rfl⟩

theorem afterSymbolPrefix?_eq_none_of_cutAt? {start symbol : List Char}
    (h : Text.cutAt? (Grammar.byteLength start) symbol = none) :
    afterSymbolPrefix? start symbol = none := by
  refine Option.eq_none_iff_forall_ne_some.mpr fun rest hrest => ?_
  obtain ⟨-, written, hsame, rfl⟩ := afterSymbolPrefix?_eq_some_iff.mp hrest
  rw [← Text.byteLength_eq_of_same hsame, Text.cutAt?_byteLength] at h
  cases h

theorem afterSymbolPrefix?_nil_underscore {rest : List Char} (h : rest ≠ []) :
    afterSymbolPrefix? [] ('_' :: rest) = some rest :=
  afterSymbolPrefix?_eq_some_iff.mpr ⟨h, [], rfl, rfl⟩

theorem afterSymbolPrefix?_nil_eq_none {symbol : List Char}
    (h : ∀ rest, rest ≠ [] → symbol ≠ '_' :: rest) : afterSymbolPrefix? [] symbol = none := by
  refine Option.eq_none_iff_forall_ne_some.mpr fun rest hrest => ?_
  obtain ⟨hne, written, hwritten, rfl⟩ := afterSymbolPrefix?_eq_some_iff.mp hrest
  obtain rfl : written = [] := List.map_eq_nil_iff.mp (eq_of_beq hwritten)
  exact h rest hne rfl

theorem sliceAfter?_append_underscore {start written rest : List Char} (hstart : start ≠ [])
    (hwritten : Grammar.byteLength written = Grammar.byteLength start) (hrest : rest ≠ []) :
    sliceAfter? start (written ++ '_' :: rest) =
      some (if Text.sameIgnoringAsciiCase written start then some rest else none) := by
  have hsize := Grammar.byteLength_pos hstart
  have hpos := Grammar.byteLength_pos hrest
  have hlength : Grammar.byteLength ('_' :: rest) = 1 + Grammar.byteLength rest := rfl
  have hcut : Text.cutAt? (Grammar.byteLength start) (written ++ '_' :: rest) =
      some (written, '_' :: rest) := Text.cutAt?_eq_some_iff.mpr ⟨rfl, hwritten⟩
  have hnext : Text.cutAt? (Grammar.byteLength start + 1) (written ++ '_' :: rest) =
      some (written ++ ['_'], rest) := by
    refine Text.cutAt?_eq_some_iff.mpr ⟨by rw [List.append_assoc, List.singleton_append], ?_⟩
    rw [Grammar.byteLength_append, hwritten]
    rfl
  have hbyte : (Text.bytes (written ++ '_' :: rest))[Grammar.byteLength start]? =
      some '_'.toUInt8 := by
    rw [← hwritten, Text.getElem?_bytes_eq_some_iff written rest utf8EncodeChar_underscore]
  rw [sliceAfter?, if_neg, hcut, hbyte, hnext]
  · simp only [Option.bind_eq_bind, Option.bind_some, if_true]
    split <;> rfl
  · rw [Grammar.byteLength_append, hcut]
    rintro (hzero | hshort | hnone)
    · omega
    · omega
    · cases hnone

theorem sliceAfter?_append_other {start written after : List Char}
    (hwritten : Grammar.byteLength written = Grammar.byteLength start)
    (hafter : ∀ rest, rest ≠ [] → after ≠ '_' :: rest) :
    sliceAfter? start (written ++ after) = some none := by
  rw [sliceAfter?, Grammar.byteLength_append, hwritten]
  split
  · rfl
  rename_i hguard
  obtain ⟨char, rest, rfl⟩ : ∃ char rest, after = char :: rest := by
    refine List.exists_cons_of_ne_nil fun hnil => hguard (.inr (.inl ?_))
    rw [hnil, Grammar.byteLength]
    exact Nat.le_succ _
  have hchar : char ≠ '_' := by
    rintro rfl
    refine hafter rest (fun hnil => hguard (.inr (.inl ?_))) rfl
    rw [hnil]
    exact Nat.le_refl _
  have hcut : Text.cutAt? (Grammar.byteLength start) (written ++ char :: rest) =
      some (written, char :: rest) := Text.cutAt?_eq_some_iff.mpr ⟨rfl, hwritten⟩
  obtain ⟨byte, hbyte⟩ : ∃ byte,
      (Text.bytes (written ++ char :: rest))[Grammar.byteLength written]? = some byte := by
    refine ⟨_, List.getElem?_eq_getElem ?_⟩
    rw [Text.length_bytes, Grammar.byteLength_append]
    exact Nat.lt_add_of_pos_right (Grammar.byteLength_pos (List.cons_ne_nil char rest))
  have hne : byte ≠ '_'.toUInt8 := fun heq => hchar <|
    (Text.getElem?_bytes_eq_some_iff written rest utf8EncodeChar_underscore).mp (heq ▸ hbyte)
  rw [hcut, ← hwritten, hbyte]
  simp only [Option.bind_eq_bind, Option.bind_some, if_neg hne, ite_self]
  rfl

/-- The cuts are all in range and between characters. -/
theorem sliceAfter?_eq (start symbol : List Char) :
    sliceAfter? start symbol =
      some (if start = [] then none else afterSymbolPrefix? start symbol) := by
  by_cases hstart : start = []
  · rw [if_pos hstart, sliceAfter?, if_pos (.inl (by rw [hstart, Grammar.byteLength]))]
  rw [if_neg hstart]
  cases hcut : Text.cutAt? (Grammar.byteLength start) symbol with
  | none =>
      rw [sliceAfter?, if_pos (.inr (.inr hcut)), afterSymbolPrefix?_eq_none_of_cutAt? hcut]
  | some parts =>
      obtain ⟨written, after⟩ := parts
      obtain ⟨rfl, hwritten⟩ := Text.cutAt?_eq_some_iff.mp hcut
      rw [afterSymbolPrefix?_append hwritten]
      by_cases hafter : ∃ rest, rest ≠ [] ∧ after = '_' :: rest
      · obtain ⟨rest, hrest, rfl⟩ := hafter
        rw [sliceAfter?_append_underscore hstart hwritten hrest,
          afterSymbolPrefix?_nil_underscore hrest]
      · have hother : ∀ rest, rest ≠ [] → after ≠ '_' :: rest :=
          fun rest hrest heq => hafter ⟨rest, hrest, heq⟩
        rw [sliceAfter?_append_other hwritten hother, afterSymbolPrefix?_nil_eq_none hother,
          ite_self]

/-- The names that are left of a symbol in a namespace, where all cuts are made by bytes. -/
def slicedNames? (space : Namespace) (symbol : String) : Option (List String) :=
  ((longestFirst space.symbolPrefixes).mapM fun start =>
    sliceAfter? (trimUnderscores start) symbol.toList).map
      fun names => names.filterMap fun name => name.map String.ofList

theorem slicedNames?_eq (space : Namespace) (symbol : String) :
    slicedNames? space symbol = some (symbolNames space symbol) := by
  have hslices : (fun start => sliceAfter? (trimUnderscores start) symbol.toList) = fun start =>
      pure (if trimUnderscores start = [] then none
        else afterSymbolPrefix? (trimUnderscores start) symbol.toList) :=
    funext fun start => sliceAfter?_eq _ _
  rw [slicedNames?, hslices, List.mapM_pure, Option.pure_def, Option.map_some, List.filterMap_map,
    symbolNames]
  refine congrArg some (List.filterMap_congr fun start _ => ?_)
  cases h : trimUnderscores start <;> simp [h]

def Names (reading : repo.Reading) : repo.Ref → Prop :=
  LastIn reading.space (Ref.IsTop reading.name)

def Carries (symbol : String) (reading : repo.Reading) : repo.Ref → Prop :=
  LastIn reading.space fun ref => ref.entity.symbol = some symbol

theorem firstNamed?_map (listed : List repo.Reading) :
    repo.firstNamed? (listed.map fun reading => (reading.space, reading.name)) =
      listed.findSome? fun reading => repo.get? reading.space reading.name := by
  rw [firstNamed?, List.findSome?_map]
  rfl

theorem typeCandidates_eq (identifier : String) :
    repo.typeCandidates identifier =
      (repo.spaceIds.flatMap (typeReadings identifier)).map
        fun reading => (reading.space, reading.name) :=
  (map_flatMap_readings
    (fun space reading hmem => (((lists_typeReadings identifier space).mem_iff reading).mp hmem).1)
    (map_name_typeReadings identifier)).symm

theorem symbolCandidates_eq (symbol : String) :
    repo.symbolCandidates symbol =
      (repo.spaceIds.flatMap (symbolReadings symbol)).map
        fun reading => (reading.space, reading.name) :=
  (map_flatMap_readings
    (fun space reading hmem => (((lists_symbolReadings symbol space).mem_iff reading).mp hmem).1)
    (map_name_symbolReadings symbol)).symm

/-- A type name means what its first reading that names an entity names. -/
theorem entityOfType?_first (identifier : String) :
    (∀ ref, repo.entityOfType? identifier = some ref ↔ FirstOf (OfType identifier) Names ref) ∧
      (repo.entityOfType? identifier = none ↔
        ∀ reading : repo.Reading, OfType identifier reading →
          ∀ ref : repo.Ref, ref.space = reading.space → ¬ ref.IsTop reading.name) := by
  have hlists := Lists.flatMap (@lists_typeReadings repo identifier)
  rw [entityOfType?, typeCandidates_eq, firstNamed?_map, hlists.findSome?_eq_none_iff]
  refine ⟨fun ref => hlists.findSome?_eq_some_iff fun _ _ => get?_eq_some_iff_lastIn, ?_⟩
  simp only [get?_eq_none_iff_forall]

/-- An entity that carries the symbol, in whichever namespace it can be read in, comes before all
entities that are named by what is left of it. -/
theorem entityOfSymbol?_carried_first (symbol : String) :
    (∀ ref, repo.entityOfSymbol? symbol = some ref ↔
        FirstOf (OfSymbol symbol) (Carries symbol) ref ∨
          (∀ reading : repo.Reading, OfSymbol symbol reading →
              ∀ other : repo.Ref, other.space = reading.space →
                other.entity.symbol ≠ some symbol) ∧
            FirstOf (OfSymbol symbol) Names ref) ∧
      (repo.entityOfSymbol? symbol = none ↔
        ∀ reading : repo.Reading, OfSymbol symbol reading →
          ∀ ref : repo.Ref, ref.space = reading.space →
            ref.entity.symbol ≠ some symbol ∧ ¬ ref.IsTop reading.name) ∧
      ∀ space, slicedNames? space symbol = some (symbolNames space symbol) := by
  have hlists := Lists.flatMap (@lists_symbolReadings repo symbol)
  have hentity : repo.entityOfSymbol? symbol =
      ((repo.spaceIds.flatMap (symbolReadings symbol)).findSome? fun reading =>
          repo.withSymbol? reading.space symbol).or
        ((repo.spaceIds.flatMap (symbolReadings symbol)).findSome? fun reading =>
          repo.get? reading.space reading.name) := by
    have heq : repo.entityOfSymbol? symbol =
        ((repo.symbolCandidates symbol).findSome? fun candidate =>
          repo.withSymbol? candidate.1 symbol).or
            (repo.firstNamed? (repo.symbolCandidates symbol)) := rfl
    rw [heq, symbolCandidates_eq, firstNamed?_map, List.findSome?_map]
    rfl
  refine ⟨fun ref => ?_, ?_, fun space => slicedNames?_eq space symbol⟩
  · rw [hentity, Option.or_eq_some_iff, hlists.findSome?_eq_none_iff,
      hlists.findSome?_eq_some_iff fun _ _ => withSymbol?_eq_some_iff_lastIn,
      hlists.findSome?_eq_some_iff fun _ _ => get?_eq_some_iff_lastIn]
    simp only [withSymbol?_eq_none_iff_forall]
    rfl
  · rw [hentity, Option.or_eq_none_iff, hlists.findSome?_eq_none_iff, hlists.findSome?_eq_none_iff]
    simp only [withSymbol?_eq_none_iff_forall, get?_eq_none_iff_forall]
    grind

end Repository

end DocMarkup
