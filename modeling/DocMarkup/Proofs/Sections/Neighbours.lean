import Mathlib.Logic.Function.Iterate
import DocMarkup.Proofs.Repository.Layout
import DocMarkup.Sections

/-!
Neighbours in an order of pages.

A symbol may be listed more than once, and so may a title. What counts is the place where it
stands last: the neighbours of a symbol are those beside that place in the same section, and the
neighbours of a title are the sections beside it. If nothing is listed twice, going on and going
back undo each other, and going on from the first leads through all of them.
-/

namespace DocMarkup

section

variable {α : Type} {items : List α} {test : α → Bool} {place : Nat}

theorem findRev?_range_eq_some_iff {test : Nat → Bool} {count : Nat} :
    (List.range count).findRev? test = some place ↔
      (place < count ∧ test place = true) ∧
        ∀ later, place < later → later < count → test later = false := by
  rw [List.findRev?_eq_find?_reverse]
  induction count with
  | zero => simp
  | succ count ih =>
      rw [List.range_succ, List.reverse_append, List.reverse_singleton, List.singleton_append,
        List.find?_cons]
      cases hcount : test count with
      | true =>
          rw [Option.some_inj]
          constructor
          · rintro rfl
            exact ⟨⟨Nat.lt_succ_self _, hcount⟩, fun later hlt hle => by omega⟩
          · rintro ⟨⟨hlt, -⟩, hlast⟩
            refine Nat.le_antisymm (Nat.le_of_not_lt fun hplace => ?_) (Nat.le_of_lt_succ hlt)
            exact Bool.false_ne_true ((hlast count hplace (Nat.lt_succ_self _)).symm.trans hcount)
      | false =>
          rw [ih]
          constructor
          · rintro ⟨⟨hlt, htest⟩, hlast⟩
            refine ⟨⟨Nat.lt_succ_of_lt hlt, htest⟩, fun later hplace hle => ?_⟩
            rcases Nat.lt_succ_iff_lt_or_eq.mp hle with hle | rfl
            · exact hlast later hplace hle
            · exact hcount
          · rintro ⟨⟨hlt, htest⟩, hlast⟩
            rcases Nat.lt_succ_iff_lt_or_eq.mp hlt with hlt | rfl
            · exact ⟨⟨hlt, htest⟩, fun later hplace hle =>
                hlast later hplace (Nat.lt_succ_of_lt hle)⟩
            · exact absurd htest (by simp [hcount])

theorem findRev?_places_eq_some_iff :
    ((List.range items.length).findRev? fun place => items[place]?.any test) = some place ↔
      IsLast items (test · = true) place := by
  have hany : ∀ place : Nat,
      items[place]?.any test = true ↔ ∃ item ∈ items[place]?, test item = true :=
    fun place => Option.any_eq_true _ _
  rw [findRev?_range_eq_some_iff, IsLast, hany]
  refine and_congr ⟨And.right, fun h => ⟨?_, h⟩⟩ (forall₂_congr fun later _ => ?_)
  · obtain ⟨item, hitem, -⟩ := h
    exact (List.getElem?_eq_some_iff.mp hitem).1
  · rw [Bool.eq_false_iff, ne_eq, hany]
    constructor
    · intro h item hitem htest
      exact h (List.getElem?_eq_some_iff.mp hitem).1 ⟨item, hitem, htest⟩
    · rintro h - ⟨item, hitem, htest⟩
      exact h item hitem htest

theorem findRev?_places_eq_none_iff :
    ((List.range items.length).findRev? fun place => items[place]?.any test) = none ↔
      ∀ place : Nat, ∀ item ∈ items[place]?, test item = false := by
  rw [List.findRev?_eq_find?_reverse, List.find?_eq_none]
  constructor
  · intro h place item hitem
    have hplace := h place (by simpa using (List.getElem?_eq_some_iff.mp hitem).1)
    rw [Option.mem_def.mp hitem, Option.any_some] at hplace
    exact Bool.eq_false_iff.mpr hplace
  · intro h place _ hany
    obtain ⟨item, hitem, htest⟩ := (Option.any_eq_true _ _).mp hany
    exact Bool.false_ne_true ((h place item hitem).symm.trans htest)

theorem isLast_of_nodup {key : α → β} {item : α} (hnodup : (items.map key).Nodup)
    (hitem : items[place]? = some item) : IsLast items (key · = key item) place := by
  refine ⟨⟨item, hitem, rfl⟩, fun later hlater other hother hkey => hlater.ne ?_⟩
  refine (List.getElem?_inj (by simpa using (List.getElem?_eq_some_iff.mp hitem).1) hnodup).mp ?_
  rw [List.getElem?_map, List.getElem?_map, hitem, Option.mem_def.mp hother, Option.map_some,
    Option.map_some, hkey]

theorem iterate_bind_head? {next : α → Option α}
    (h : ∀ place item, items[place]? = some item → next item = items[place + 1]?) (steps : Nat) :
    (fun item? => item?.bind next)^[steps] items.head? = items[steps]? := by
  induction steps with
  | zero => exact List.head?_eq_getElem?
  | succ steps ih =>
      rw [Function.iterate_succ_apply', ih]
      cases hitem : items[steps]? with
      | none => exact (List.getElem?_eq_none (by simp at hitem; omega)).symm
      | some item => exact h steps item hitem

end

namespace Sections

variable {sections : Sections} {first : Section} {symbol : String} {place index : Nat}

def symbolAt? (sections : Sections) (place index : Nat) : Option String :=
  sections[place]?.bind fun part => part.symbols[index]?

/-- The symbol stands there, and not in a later section or further on in this one. -/
structure LastAt (sections : Sections) (symbol : String) (place index : Nat) : Prop where
  here : sections.symbolAt? place index = some symbol
  last : ∀ otherPlace otherIndex, sections.symbolAt? otherPlace otherIndex = some symbol →
    otherPlace < place ∨ otherPlace = place ∧ otherIndex ≤ index

theorem lastAt_cons_zero_iff :
    LastAt (first :: sections) symbol 0 index ↔
      (∀ place index, sections.symbolAt? place index ≠ some symbol) ∧
        IsLast first.symbols (· = symbol) index := by
  constructor
  · rintro ⟨hhere, hlast⟩
    refine ⟨fun place index h => ?_, ⟨symbol, hhere, rfl⟩, fun later hlater other hother heq => ?_⟩
    · have := hlast (place + 1) index h
      omega
    · have := hlast 0 later (heq ▸ hother)
      omega
  · rintro ⟨hrest, ⟨_, hhere, rfl⟩, hlast⟩
    refine ⟨hhere, fun otherPlace otherIndex hother => .inr ?_⟩
    cases otherPlace with
    | zero => exact ⟨rfl, Nat.le_of_not_lt fun hlt => hlast otherIndex hlt _ hother rfl⟩
    | succ otherPlace => exact absurd hother (hrest otherPlace otherIndex)

theorem lastAt_cons_succ_iff :
    LastAt (first :: sections) symbol (place + 1) index ↔ LastAt sections symbol place index := by
  constructor
  · rintro ⟨hhere, hlast⟩
    refine ⟨hhere, fun otherPlace otherIndex hother => ?_⟩
    have := hlast (otherPlace + 1) otherIndex hother
    omega
  · rintro ⟨hhere, hlast⟩
    refine ⟨hhere, fun otherPlace otherIndex hother => ?_⟩
    cases otherPlace with
    | zero => exact .inl (Nat.succ_pos _)
    | succ otherPlace =>
        have := hlast otherPlace otherIndex hother
        omega

theorem symbolPlace?_cons (first : Section) (rest : Sections) (symbol : String) :
    symbolPlace? (first :: rest) symbol =
      (symbolPlace? rest symbol).or
        (((List.range first.symbols.length).findRev? fun index =>
          first.symbols[index]?.any (· == symbol)).map (first.symbols, ·)) := by
  have hany : ∀ index : Nat, (first.symbols[index]? == some symbol) =
      first.symbols[index]?.any (· == symbol) := fun index => by
    cases first.symbols[index]? <;> rfl
  simp only [symbolPlace?, hany]

theorem symbolPlace?_eq_none_iff :
    sections.symbolPlace? symbol = none ↔
      ∀ place index, sections.symbolAt? place index ≠ some symbol := by
  induction sections with
  | nil => simp [symbolPlace?, symbolAt?]
  | cons first rest ih =>
      rw [symbolPlace?_cons, Option.or_eq_none_iff, ih, Option.map_eq_none_iff,
        findRev?_places_eq_none_iff]
      constructor
      · rintro ⟨hrest, hfirst⟩ place index h
        cases place with
        | zero => exact absurd (hfirst index symbol h) (by simp)
        | succ place => exact hrest place index h
      · intro h
        refine ⟨fun place index => h (place + 1) index, fun index item hitem => ?_⟩
        exact beq_eq_false_iff_ne.mpr fun heq => h 0 index (heq ▸ hitem)

theorem symbolPlace?_eq_some_iff {symbols : List String} :
    sections.symbolPlace? symbol = some (symbols, index) ↔
      ∃ place part, sections[place]? = some part ∧ part.symbols = symbols ∧
        sections.LastAt symbol place index := by
  induction sections with
  | nil => simp [symbolPlace?]
  | cons first rest ih =>
      rw [symbolPlace?_cons, Option.or_eq_some_iff, ih, symbolPlace?_eq_none_iff,
        Option.map_eq_some_iff]
      simp only [findRev?_places_eq_some_iff, beq_iff_eq, Prod.mk.injEq]
      constructor
      · rintro (⟨place, part, hpart, hsymbols, hlast⟩ | ⟨hrest, index, hfirst, hsymbols, rfl⟩)
        · exact ⟨place + 1, part, hpart, hsymbols, lastAt_cons_succ_iff.mpr hlast⟩
        · exact ⟨0, first, rfl, hsymbols, lastAt_cons_zero_iff.mpr ⟨hrest, hfirst⟩⟩
      · rintro ⟨place, part, hpart, hsymbols, hlast⟩
        cases place with
        | zero =>
            cases hpart
            obtain ⟨hrest, hfirst⟩ := lastAt_cons_zero_iff.mp hlast
            exact .inr ⟨hrest, index, hfirst, hsymbols, rfl⟩
        | succ place => exact .inl ⟨place, part, hpart, hsymbols, lastAt_cons_succ_iff.mp hlast⟩

theorem symbolAfter?_eq_some_iff {next : String} :
    sections.symbolAfter? symbol = some next ↔
      ∃ place index, sections.LastAt symbol place index ∧
        sections.symbolAt? place (index + 1) = some next := by
  rw [symbolAfter?, Option.bind_eq_some_iff]
  constructor
  · rintro ⟨⟨symbols, index⟩, hfound, hnext⟩
    obtain ⟨place, part, hpart, rfl, hlast⟩ := symbolPlace?_eq_some_iff.mp hfound
    exact ⟨place, index, hlast, Option.bind_eq_some_iff.mpr ⟨part, hpart, hnext⟩⟩
  · rintro ⟨place, index, hlast, hnext⟩
    obtain ⟨part, hpart, hnext⟩ := Option.bind_eq_some_iff.mp hnext
    exact ⟨(part.symbols, index), symbolPlace?_eq_some_iff.mpr ⟨place, part, hpart, rfl, hlast⟩,
      hnext⟩

theorem symbolBefore?_eq_some_iff {previous : String} :
    sections.symbolBefore? symbol = some previous ↔
      ∃ place index, sections.LastAt symbol place (index + 1) ∧
        sections.symbolAt? place index = some previous := by
  rw [symbolBefore?, Option.bind_eq_some_iff]
  constructor
  · rintro ⟨⟨symbols, index⟩, hfound, hprevious⟩
    cases index with
    | zero => cases hprevious
    | succ index =>
        obtain ⟨place, part, hpart, rfl, hlast⟩ := symbolPlace?_eq_some_iff.mp hfound
        exact ⟨place, index, hlast, Option.bind_eq_some_iff.mpr ⟨part, hpart, hprevious⟩⟩
  · rintro ⟨place, index, hlast, hprevious⟩
    obtain ⟨part, hpart, hprevious⟩ := Option.bind_eq_some_iff.mp hprevious
    exact ⟨(part.symbols, index + 1),
      symbolPlace?_eq_some_iff.mpr ⟨place, part, hpart, rfl, hlast⟩, hprevious⟩

theorem place?_eq_some_iff {title : String} :
    sections.place? title = some place ↔ IsLast sections (·.title = title) place := by
  rw [place?, findRev?_places_eq_some_iff]
  simp only [beq_iff_eq]

theorem after?_eq_some_iff {title : String} {next : Section} :
    sections.after? title = some next ↔
      ∃ place, IsLast sections (·.title = title) place ∧ sections[place + 1]? = some next := by
  simp only [after?, Option.bind_eq_some_iff, place?_eq_some_iff]

theorem before?_eq_some_iff {title : String} {previous : Section} :
    sections.before? title = some previous ↔
      ∃ place, IsLast sections (·.title = title) (place + 1) ∧
        sections[place]? = some previous := by
  simp only [before?, Option.bind_eq_some_iff, place?_eq_some_iff]
  constructor
  · rintro ⟨place, hlast, hprevious⟩
    cases place with
    | zero => cases hprevious
    | succ place => exact ⟨place, hlast, hprevious⟩
  · rintro ⟨place, hlast, hprevious⟩
    exact ⟨place + 1, hlast, hprevious⟩

theorem mem_of_symbolAt? (h : sections.symbolAt? place index = some symbol) :
    symbol ∈ sections.flatMap (·.symbols) := by
  obtain ⟨part, hpart, hsymbol⟩ := Option.bind_eq_some_iff.mp h
  exact List.mem_flatMap.mpr
    ⟨part, List.mem_of_getElem? hpart, List.mem_of_getElem? hsymbol⟩

theorem symbolAt?_inj (hnodup : (sections.flatMap (·.symbols)).Nodup) {otherPlace otherIndex : Nat}
    (h : sections.symbolAt? place index = some symbol)
    (hother : sections.symbolAt? otherPlace otherIndex = some symbol) :
    otherPlace = place ∧ otherIndex = index := by
  induction sections generalizing place otherPlace with
  | nil => cases h
  | cons first rest ih =>
      obtain ⟨hfirst, hrest, hapart⟩ := List.nodup_append.mp hnodup
      cases place with
      | zero =>
          cases otherPlace with
          | zero =>
              have hlt := (List.getElem?_eq_some_iff.mp hother).1
              exact ⟨rfl, (List.getElem?_inj hlt hfirst).mp (hother.trans h.symm)⟩
          | succ otherPlace =>
              exact absurd rfl (hapart _ (List.mem_of_getElem? h) _ (mem_of_symbolAt? hother))
      | succ place =>
          cases otherPlace with
          | zero =>
              exact absurd rfl (hapart _ (List.mem_of_getElem? hother) _ (mem_of_symbolAt? h))
          | succ otherPlace =>
              obtain ⟨rfl, rfl⟩ := ih hrest h hother
              exact ⟨rfl, rfl⟩

theorem lastAt_of_nodup (hnodup : (sections.flatMap (·.symbols)).Nodup)
    (h : sections.symbolAt? place index = some symbol) : sections.LastAt symbol place index := by
  refine ⟨h, fun otherPlace otherIndex hother => .inr ?_⟩
  obtain ⟨rfl, rfl⟩ := symbolAt?_inj hnodup h hother
  exact ⟨rfl, Nat.le_refl _⟩

theorem symbolAfter?_iff_symbolBefore? (hnodup : (sections.flatMap (·.symbols)).Nodup)
    {other : String} :
    sections.symbolAfter? symbol = some other ↔ sections.symbolBefore? other = some symbol := by
  rw [symbolAfter?_eq_some_iff, symbolBefore?_eq_some_iff]
  refine exists₂_congr fun place index => ⟨?_, ?_⟩
  · rintro ⟨hlast, hother⟩
    exact ⟨lastAt_of_nodup hnodup hother, hlast.here⟩
  · rintro ⟨hlast, hsymbol⟩
    exact ⟨lastAt_of_nodup hnodup hsymbol, hlast.here⟩

theorem symbolAfter?_of_nodup (hnodup : (sections.flatMap (·.symbols)).Nodup) {part : Section}
    (hpart : sections[place]? = some part) (hsymbol : part.symbols[index]? = some symbol) :
    sections.symbolAfter? symbol = part.symbols[index + 1]? := by
  have hat : ∀ index, sections.symbolAt? place index = part.symbols[index]? := fun index => by
    rw [symbolAt?, hpart, Option.bind_some]
  have hlast := lastAt_of_nodup hnodup ((hat index).trans hsymbol)
  refine Option.ext fun next => ?_
  rw [symbolAfter?_eq_some_iff, ← hat]
  constructor
  · rintro ⟨otherPlace, otherIndex, hother, hnext⟩
    obtain ⟨rfl, rfl⟩ := symbolAt?_inj hnodup hlast.here hother.here
    exact hnext
  · exact fun hnext => ⟨place, index, hlast, hnext⟩

theorem after?_of_nodup (hnodup : (sections.map (·.title)).Nodup) {part : Section}
    (hpart : sections[place]? = some part) : sections.after? part.title = sections[place + 1]? := by
  rw [after?, place?_eq_some_iff.mpr (isLast_of_nodup hnodup hpart), Option.bind_some]

theorem after?_iff_before? (hnodup : (sections.map (·.title)).Nodup) {title other : String} :
    (sections.after? title).map (·.title) = some other ↔
      (sections.before? other).map (·.title) = some title := by
  simp only [Option.map_eq_some_iff, after?_eq_some_iff, before?_eq_some_iff]
  constructor
  · rintro ⟨next, ⟨place, ⟨⟨part, hpart, rfl⟩, -⟩, hnext⟩, rfl⟩
    exact ⟨part, ⟨place, isLast_of_nodup hnodup hnext, hpart⟩, rfl⟩
  · rintro ⟨previous, ⟨place, ⟨⟨part, hpart, rfl⟩, -⟩, hprevious⟩, rfl⟩
    exact ⟨part, ⟨place, isLast_of_nodup hnodup hprevious, hpart⟩, rfl⟩

/-- Symbols and sections have the neighbours that stand beside them where they are listed last.
If none is listed twice, both directions agree and lead through the lists in their order. -/
structure LeadsInOrder (sections : Sections) : Prop where
  symbolAfter : ∀ symbol next, sections.symbolAfter? symbol = some next ↔
    ∃ place index, sections.LastAt symbol place index ∧
      sections.symbolAt? place (index + 1) = some next
  symbolBefore : ∀ symbol previous, sections.symbolBefore? symbol = some previous ↔
    ∃ place index, sections.LastAt symbol place (index + 1) ∧
      sections.symbolAt? place index = some previous
  sectionAfter : ∀ title next, sections.after? title = some next ↔
    ∃ place, IsLast sections (·.title = title) place ∧ sections[place + 1]? = some next
  sectionBefore : ∀ title previous, sections.before? title = some previous ↔
    ∃ place, IsLast sections (·.title = title) (place + 1) ∧ sections[place]? = some previous
  symbolsAgree : (sections.flatMap (·.symbols)).Nodup → ∀ symbol other,
    sections.symbolAfter? symbol = some other ↔ sections.symbolBefore? other = some symbol
  symbolsInTurn : (sections.flatMap (·.symbols)).Nodup → ∀ part ∈ sections, ∀ steps,
    (fun symbol? => symbol?.bind sections.symbolAfter?)^[steps] part.symbols.head? =
      part.symbols[steps]?
  sectionsAgree : (sections.map (·.title)).Nodup → ∀ title other,
    (sections.after? title).map (·.title) = some other ↔
      (sections.before? other).map (·.title) = some title
  sectionsInTurn : (sections.map (·.title)).Nodup → ∀ steps,
    (fun part? => part?.bind fun part => sections.after? part.title)^[steps] sections.head? =
      sections[steps]?

theorem leadsInOrder (sections : Sections) : sections.LeadsInOrder where
  symbolAfter _ _ := symbolAfter?_eq_some_iff
  symbolBefore _ _ := symbolBefore?_eq_some_iff
  sectionAfter _ _ := after?_eq_some_iff
  sectionBefore _ _ := before?_eq_some_iff
  symbolsAgree hnodup _ _ := symbolAfter?_iff_symbolBefore? hnodup
  symbolsInTurn hnodup part hpart := by
    obtain ⟨place, hplace⟩ := List.mem_iff_getElem?.mp hpart
    exact iterate_bind_head? fun index symbol hsymbol =>
      symbolAfter?_of_nodup hnodup hplace hsymbol
  sectionsAgree hnodup _ _ := after?_iff_before? hnodup
  sectionsInTurn hnodup := iterate_bind_head? fun place part hpart => after?_of_nodup hnodup hpart

example : symbolAfter? [⟨"Widget", ["show", "hide"]⟩, ⟨"Button", ["show"]⟩] "show" = none := by
  decide

end Sections

end DocMarkup
