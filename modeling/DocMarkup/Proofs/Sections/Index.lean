import Mathlib.Data.List.Induction
import DocMarkup.Proofs.Repository.Arena
import DocMarkup.Proofs.Sections.Neighbours

/-!
An order of pages is looked up by maps from titles and symbols to places. They are filled section
by section, and what is listed again takes the place of what was listed before.
-/

namespace DocMarkup

namespace Sections

structure Index where
  sections : Array Section := #[]
  byTitle : Std.HashMap String Nat := ∅
  /-- A symbol leads to the place of its section and to its place there. -/
  bySymbol : Std.HashMap String (Nat × Nat) := ∅

namespace Index

def addSymbols (bySymbol : Std.HashMap String (Nat × Nat)) (place : Nat)
    (symbols : List String) : Std.HashMap String (Nat × Nat) :=
  symbols.zipIdx.foldl (fun bySymbol entry => bySymbol.insert entry.1 (place, entry.2)) bySymbol

def add (index : Index) (part : Section) : Index where
  sections := index.sections.push part
  byTitle := index.byTitle.insert part.title index.sections.size
  bySymbol := addSymbols index.bySymbol index.sections.size part.symbols

def ofSections (sections : Sections) : Index :=
  sections.foldl add {}

def find? (index : Index) (title : String) : Option Section := do
  let place ← index.byTitle[title]?
  index.sections[place]?

def after? (index : Index) (title : String) : Option Section := do
  let place ← index.byTitle[title]?
  index.sections[place + 1]?

def before? (index : Index) (title : String) : Option Section := do
  match ← index.byTitle[title]? with
  | 0 => none
  | place + 1 => index.sections[place]?

def symbolAfter? (index : Index) (symbol : String) : Option String := do
  let (place, symbolPlace) ← index.bySymbol[symbol]?
  let part ← index.sections[place]?
  part.symbols[symbolPlace + 1]?

def symbolBefore? (index : Index) (symbol : String) : Option String := do
  match ← index.bySymbol[symbol]? with
  | (_, 0) => none
  | (place, symbolPlace + 1) => (← index.sections[place]?).symbols[symbolPlace]?

variable {index : Index} {sections : Sections} {part : Section} {symbol : String}
  {place symbolPlace : Nat}

theorem getElem?_addSymbols_eq_some_iff (bySymbol : Std.HashMap String (Nat × Nat)) (place : Nat)
    (symbols : List String) {found : Nat × Nat} :
    (addSymbols bySymbol place symbols)[symbol]? = some found ↔
      (found.1 = place ∧ IsLast symbols (· = symbol) found.2) ∨
        symbol ∉ symbols ∧ bySymbol[symbol]? = some found := by
  induction symbols using List.reverseRecOn with
  | nil => simp [addSymbols, IsLast]
  | append_singleton symbols last ih =>
      have hstep : addSymbols bySymbol place (symbols ++ [last]) =
          (addSymbols bySymbol place symbols).insert last (place, symbols.length) := by
        simp [addSymbols, List.zipIdx_append]
      rw [hstep, Std.HashMap.getElem?_insert, isLast_concat_iff]
      by_cases heq : last = symbol
      · simp [heq, Prod.ext_iff, eq_comm]
      · simp [heq, ih, Ne.symm heq]

theorem lt_length_of_symbolAt? (h : sections.symbolAt? place symbolPlace = some symbol) :
    place < sections.length := by
  obtain ⟨part, hpart, -⟩ := Option.bind_eq_some_iff.mp h
  exact (List.getElem?_eq_some_iff.mp hpart).1

theorem symbolAt?_concat_iff :
    symbolAt? (sections ++ [part]) place symbolPlace = some symbol ↔
      (place = sections.length ∧ part.symbols[symbolPlace]? = some symbol) ∨
        sections.symbolAt? place symbolPlace = some symbol := by
  rcases Nat.lt_trichotomy place sections.length with hlt | rfl | hgt
  · simp [symbolAt?, List.getElem?_append_left hlt, hlt.ne]
  · simp [symbolAt?]
  · have hend : (sections ++ [part]).length ≤ place := by
      rw [List.length_append, List.length_singleton]
      exact hgt
    simp [symbolAt?, List.getElem?_eq_none hend, List.getElem?_eq_none hgt.le, hgt.ne']

theorem lastAt_concat_iff :
    LastAt (sections ++ [part]) symbol place symbolPlace ↔
      (place = sections.length ∧ IsLast part.symbols (· = symbol) symbolPlace) ∨
        symbol ∉ part.symbols ∧ LastAt sections symbol place symbolPlace := by
  constructor
  · intro h
    obtain ⟨hhere, hlast⟩ := h
    rcases symbolAt?_concat_iff.mp hhere with ⟨rfl, hpart⟩ | hbefore
    · refine .inl ⟨rfl, ⟨symbol, hpart, rfl⟩, fun later hlater other hother heq => ?_⟩
      have hle := hlast _ later (symbolAt?_concat_iff.mpr (.inl ⟨rfl, heq ▸ hother⟩))
      omega
    · refine .inr ⟨fun hmem => ?_, hbefore, fun otherPlace otherIndex hother => ?_⟩
      · obtain ⟨later, hlater⟩ := List.mem_iff_getElem?.mp hmem
        have hlt := lt_length_of_symbolAt? hbefore
        have hle := hlast _ later (symbolAt?_concat_iff.mpr (.inl ⟨rfl, hlater⟩))
        omega
      · exact hlast otherPlace otherIndex (symbolAt?_concat_iff.mpr (.inr hother))
  · intro h
    rcases h with ⟨rfl, ⟨_, hhere, rfl⟩, hlast⟩ | ⟨habsent, hhere, hlast⟩
    · refine ⟨symbolAt?_concat_iff.mpr (.inl ⟨rfl, hhere⟩), fun otherPlace otherIndex hother => ?_⟩
      rcases symbolAt?_concat_iff.mp hother with ⟨rfl, hpart⟩ | hbefore
      · exact .inr ⟨rfl, Nat.le_of_not_lt fun hlt => hlast otherIndex hlt _ hpart rfl⟩
      · exact .inl (lt_length_of_symbolAt? hbefore)
    · refine ⟨symbolAt?_concat_iff.mpr (.inr hhere), fun otherPlace otherIndex hother => ?_⟩
      rcases symbolAt?_concat_iff.mp hother with ⟨rfl, hpart⟩ | hbefore
      · exact absurd (List.mem_of_getElem? hpart) habsent
      · exact hlast otherPlace otherIndex hbefore

/-- The maps lead to where titles and symbols are listed last. -/
structure Answers (index : Index) : Prop where
  byTitle : ∀ title place, index.byTitle[title]? = some place ↔
    IsLast index.sections.toList (·.title = title) place
  bySymbol : ∀ symbol place symbolPlace, index.bySymbol[symbol]? = some (place, symbolPlace) ↔
    LastAt index.sections.toList symbol place symbolPlace

theorem Answers.empty : Answers {} where
  byTitle title place := by simp [IsLast]
  bySymbol symbol place symbolPlace := by
    refine iff_of_false (by simp) fun h => ?_
    exact absurd (lt_length_of_symbolAt? h.here) (Nat.not_lt_zero place)

theorem toList_add (index : Index) (part : Section) :
    (index.add part).sections.toList = index.sections.toList ++ [part] :=
  Array.toList_push

theorem Answers.add (h : index.Answers) (part : Section) : (index.add part).Answers where
  byTitle title place := by
    rw [toList_add, isLast_concat_iff, ← h.byTitle, Index.add]
    simp only [Std.HashMap.getElem?_insert, beq_iff_eq]
    by_cases htitle : part.title = title
    · simp [htitle, eq_comm]
    · simp [htitle]
  bySymbol symbol place symbolPlace := by
    rw [toList_add, lastAt_concat_iff, ← h.bySymbol, Index.add, getElem?_addSymbols_eq_some_iff,
      Array.length_toList]

theorem answers_ofSections (sections : Sections) : (ofSections sections).Answers :=
  List.foldlRecOn sections _ .empty fun _ h part _ => h.add part

theorem toList_foldl_add (index : Index) (sections : Sections) :
    (sections.foldl add index).sections.toList = index.sections.toList ++ sections := by
  induction sections generalizing index with
  | nil => exact (List.append_nil _).symm
  | cons part sections ih =>
      rw [List.foldl_cons, ih, toList_add, List.append_assoc, List.singleton_append]

theorem toList_ofSections (sections : Sections) :
    (ofSections sections).sections.toList = sections :=
  toList_foldl_add {} sections

theorem byTitle_ofSections (sections : Sections) (title : String) :
    (ofSections sections).byTitle[title]? = sections.place? title := by
  refine Option.ext fun place => ?_
  rw [(answers_ofSections sections).byTitle, toList_ofSections, place?_eq_some_iff]

theorem symbolPlace?_eq_bind (sections : Sections) (symbol : String) :
    sections.symbolPlace? symbol =
      (ofSections sections).bySymbol[symbol]?.bind fun found =>
        sections[found.1]?.map fun part => (part.symbols, found.2) := by
  refine Option.ext fun found => ?_
  obtain ⟨symbols, symbolPlace⟩ := found
  rw [symbolPlace?_eq_some_iff, Option.bind_eq_some_iff]
  simp only [Option.map_eq_some_iff, Prod.mk.injEq]
  constructor
  · intro h
    obtain ⟨place, part, hpart, hsymbols, hlast⟩ := h
    rw [← toList_ofSections sections, ← (answers_ofSections sections).bySymbol] at hlast
    exact ⟨(place, symbolPlace), hlast, part, hpart, hsymbols, rfl⟩
  · intro h
    obtain ⟨⟨place, _⟩, hlast, part, hpart, hsymbols, rfl⟩ := h
    rw [(answers_ofSections sections).bySymbol, toList_ofSections] at hlast
    exact ⟨place, part, hpart, hsymbols, hlast⟩

/-- The index that is filled section by section answers as the searches do. -/
theorem ofSections_answers (sections : Sections) :
    (∀ title, (ofSections sections).find? title = sections.find? title) ∧
      (∀ title, (ofSections sections).after? title = sections.after? title) ∧
      (∀ title, (ofSections sections).before? title = sections.before? title) ∧
      (∀ symbol, (ofSections sections).symbolAfter? symbol = sections.symbolAfter? symbol) ∧
      ∀ symbol, (ofSections sections).symbolBefore? symbol = sections.symbolBefore? symbol := by
  have hget : ∀ place : Nat, (ofSections sections).sections[place]? = sections[place]? := by
    intro place
    rw [← Array.getElem?_toList, toList_ofSections]
  refine ⟨fun title => ?_, fun title => ?_, fun title => ?_, fun symbol => ?_, fun symbol => ?_⟩
  · simp only [find?, Sections.find?, byTitle_ofSections, hget]
    rfl
  · simp only [after?, Sections.after?, byTitle_ofSections, hget]
    rfl
  · simp only [before?, Sections.before?, byTitle_ofSections, hget]
    rfl
  · simp only [symbolAfter?, Sections.symbolAfter?, symbolPlace?_eq_bind, hget]
    cases (ofSections sections).bySymbol[symbol]? with
    | none => rfl
    | some found =>
        obtain ⟨place, symbolPlace⟩ := found
        cases hpart : sections[place]? <;> simp [hpart]
  · simp only [symbolBefore?, Sections.symbolBefore?, symbolPlace?_eq_bind, hget]
    cases (ofSections sections).bySymbol[symbol]? with
    | none => rfl
    | some found =>
        obtain ⟨place, symbolPlace⟩ := found
        cases symbolPlace <;> cases hpart : sections[place]? <;> simp [hpart]

end Index

end Sections

end DocMarkup
