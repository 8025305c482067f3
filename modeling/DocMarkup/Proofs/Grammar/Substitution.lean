import Mathlib.Data.List.Forall2
import Mathlib.Data.List.Nodup
import Mathlib.Data.List.TakeWhile
import DocMarkup.Grammar

/-!
Expansion as substitution.

What a placeholder stands for is defined without a store: the text of its target in a group,
with the placeholders in it replaced in turn. Expansion gives that text and nothing else,
whatever it has kept from earlier on.
-/

namespace DocMarkup

namespace NamedPattern

/-- What may stand inside a placeholder. -/
structure IsInside (content : List Char) : Prop where
  nonempty : content ≠ []
  chars : ∀ char ∈ content, isPlaceholderChar char = true

def placeholderOf (content : List Char) : List Char :=
  "<<".toList ++ content ++ ">>".toList

theorem takeWhile_inside {content rest : List Char} (h : IsInside content) :
    (content ++ '>' :: rest).takeWhile isPlaceholderChar = content := by
  rw [List.takeWhile_append_of_pos h.chars]
  simp [isPlaceholderChar]

theorem dropWhile_inside {content rest : List Char} (h : IsInside content) :
    (content ++ '>' :: rest).dropWhile isPlaceholderChar = '>' :: rest := by
  rw [List.dropWhile_append_of_pos h.chars]
  simp [isPlaceholderChar]

theorem placeholder?_eq_some_iff {text content rest : List Char} :
    placeholder? text = some (content, rest) ↔
      IsInside content ∧ text = placeholderOf content ++ rest := by
  constructor
  · intro h
    unfold placeholder? at h
    split at h
    · next inner =>
        simp only at h
        split at h
        · next after hafter =>
            split at h
            · cases h
            · next hnonempty =>
                cases h
                have hsplit : inner.takeWhile isPlaceholderChar ++
                    inner.dropWhile isPlaceholderChar = inner := List.takeWhile_append_dropWhile
                rw [hafter] at hsplit
                refine ⟨⟨by simpa using hnonempty, fun char hmem => ?_⟩, ?_⟩
                · exact List.mem_takeWhile_imp hmem
                · simp [placeholderOf, hsplit]
        · cases h
    · cases h
  · rintro ⟨hinside, rfl⟩
    have htext : placeholderOf content ++ rest = '<' :: '<' :: (content ++ '>' :: '>' :: rest) := by
      simp [placeholderOf]
    simp only [htext, placeholder?, takeWhile_inside hinside, dropWhile_inside hinside]
    simp [hinside.nonempty]

theorem placeholder?_placeholderOf {content : List Char} (h : IsInside content)
    (rest : List Char) : placeholder? (placeholderOf content ++ rest) = some (content, rest) :=
  placeholder?_eq_some_iff.mpr ⟨h, rfl⟩

/-- What the inside of a placeholder says: a name, or a property and a name. -/
inductive Refers : List Char → Option String → String → Prop
  | plain {name : List Char} (h : ':' ∉ name) : Refers name none (String.ofList name)
  | captured {property name : List Char} (h : ':' ∉ property) :
      Refers (property ++ ':' :: name) (some (String.ofList property)) (String.ofList name)

theorem reference_of_refers {content : List Char} {property : Option String} {name : String}
    (h : Refers content property name) : reference content = .reference property name := by
  cases h with
  | plain h =>
      have hcolon : content.dropWhile (· != ':') = [] := by
        rw [List.dropWhile_eq_nil_iff]
        intro char hmem
        exact bne_iff_ne.mpr fun heq => h (heq ▸ hmem)
      rw [reference, hcolon]
  | @captured property name h =>
      have hproperty : ∀ char ∈ property, (char != ':') = true :=
        fun char hmem => bne_iff_ne.mpr fun heq => h (heq ▸ hmem)
      rw [reference, List.dropWhile_append_of_pos hproperty,
        List.takeWhile_append_of_pos hproperty]
      simp

theorem exists_refers (content : List Char) : ∃ property name, Refers content property name := by
  by_cases h : ':' ∈ content
  · obtain ⟨property, name, rfl, hproperty⟩ := List.eq_append_cons_of_mem h
    exact ⟨_, _, .captured hproperty⟩
  · exact ⟨_, _, .plain h⟩

def groupOf (text : List Char) : List Char :=
  "(?:".toList ++ text ++ [')']

/-- What stands for a placeholder in a pattern that is matched on its own, its `owner`, where
properties are captured, and in the place of another placeholder, where they are dropped. -/
def written : (owner property : Option String) → List Char → List Char
  | some owner, some property, text => namedGroup (groupName owner property) text
  | _, _, text => text

@[simp] theorem written_none (property : Option String) (text : List Char) :
    written none property text = text := by
  cases property <;> rfl

/-- What a text becomes when the placeholders in it are replaced, from left to right. -/
inductive Substituted (patterns : List NamedPattern) :
    (owner : Option String) → List Char → List Char → Prop
  | nil {owner : Option String} : Substituted patterns owner [] []
  | copy {owner : Option String} {char : Char} {rest body : List Char}
      (hnone : ∀ content after, IsInside content → char :: rest ≠ placeholderOf content ++ after)
      (hrest : Substituted patterns owner rest body) :
      Substituted patterns owner (char :: rest) (char :: body)
  | placeholder {owner : Option String} {content rest inner body : List Char}
      {property : Option String} {name : String} {target : NamedPattern}
      (hinside : IsInside content) (hrefers : Refers content property name)
      (hfind : find? patterns name = some target)
      (hinner : Substituted patterns none target.source.toList inner)
      (hrest : Substituted patterns owner rest body) :
      Substituted patterns owner (placeholderOf content ++ rest)
        (written owner property (groupOf inner) ++ body)

/-- What the placeholders with this name stand for. -/
def Anonymous (patterns : List NamedPattern) (name : String) (text : List Char) : Prop :=
  ∃ target inner, find? patterns name = some target ∧
    Substituted patterns none target.source.toList inner ∧ text = groupOf inner

variable {patterns : List NamedPattern}

theorem placeholderOf_inj {content other rest after : List Char} (hcontent : IsInside content)
    (hother : IsInside other) (h : placeholderOf content ++ rest = placeholderOf other ++ after) :
    content = other ∧ rest = after := by
  have hfirst := placeholder?_placeholderOf hcontent rest
  rw [h, placeholder?_placeholderOf hother after] at hfirst
  simp only [Option.some.injEq, Prod.mk.injEq] at hfirst
  exact ⟨hfirst.1.symm, hfirst.2.symm⟩

theorem Refers.unique {content : List Char} {property other : Option String} {name target : String}
    (hfirst : Refers content property name) (hsecond : Refers content other target) :
    property = other ∧ name = target := by
  have h := reference_of_refers hfirst
  rw [reference_of_refers hsecond] at h
  cases h
  exact ⟨rfl, rfl⟩

theorem Substituted.unique {owner : Option String} {text body other : List Char}
    (hbody : Substituted patterns owner text body)
    (hother : Substituted patterns owner text other) :
    body = other := by
  induction hbody generalizing other with
  | nil =>
      generalize htext : ([] : List Char) = text at hother
      cases hother with
      | nil => rfl
      | copy => cases htext
      | placeholder => cases htext
  | @copy owner char rest body hnone hrest ih =>
      generalize htext : char :: rest = text at hother
      cases hother with
      | nil => cases htext
      | copy _ hother =>
          cases htext
          rw [ih hother]
      | placeholder hinside => exact absurd htext (hnone _ _ hinside)
  | @placeholder owner content rest inner body property name target hinside hrefers hfind hinner
      hrest ihInner ihRest =>
      generalize htext : placeholderOf content ++ rest = text at hother
      cases hother with
      | nil => simp [placeholderOf] at htext
      | copy hnone => exact absurd htext.symm (hnone _ _ hinside)
      | placeholder hinside' hrefers' hfind' hinner' hrest' =>
          obtain ⟨rfl, rfl⟩ := placeholderOf_inj hinside hinside' htext
          obtain ⟨rfl, rfl⟩ := hrefers.unique hrefers'
          obtain rfl := Option.some.inj (hfind.symm.trans hfind')
          rw [ihInner hinner', ihRest hrest']

theorem Anonymous.unique {name : String} {text other : List Char}
    (htext : Anonymous patterns name text) (hother : Anonymous patterns name other) :
    text = other := by
  obtain ⟨target, inner, hfind, hinner, rfl⟩ := htext
  obtain ⟨target', inner', hfind', hinner', rfl⟩ := hother
  obtain rfl := Option.some.inj (hfind.symm.trans hfind')
  rw [hinner.unique hinner']

theorem Substituted.exists_plain {owner : Option String} {text body : List Char}
    (h : Substituted patterns owner text body) : ∃ plain, Substituted patterns none text plain := by
  induction h with
  | nil => exact ⟨_, .nil⟩
  | copy hnone _ ih =>
      obtain ⟨plain, hplain⟩ := ih
      exact ⟨_, .copy hnone hplain⟩
  | placeholder hinside hrefers hfind hinner _ _ ih =>
      obtain ⟨plain, hplain⟩ := ih
      exact ⟨_, .placeholder hinside hrefers hfind hinner hplain⟩

theorem piecesOf_placeholder {content rest : List Char} {property : Option String} {name : String}
    (hinside : IsInside content) (hrefers : Refers content property name) :
    piecesOf (placeholderOf content ++ rest) = .reference property name :: piecesOf rest := by
  have hcons : placeholderOf content ++ rest = '<' :: '<' :: (content ++ '>' :: '>' :: rest) := by
    simp [placeholderOf]
  have hfound := placeholder?_placeholderOf hinside rest
  rw [hcons] at hfound ⊢
  rw [piecesOf]
  split
  · next content' after h =>
      obtain ⟨rfl, rfl⟩ := Prod.mk.inj (Option.some.inj (h.symm.trans hfound))
      rw [reference_of_refers hrefers]
  · next h => exact absurd (hfound.symm.trans h) (by simp)

theorem piecesOf_copy {char : Char} {rest : List Char}
    (hnone : ∀ content after, IsInside content → char :: rest ≠ placeholderOf content ++ after) :
    piecesOf (char :: rest) = consLiteral char (piecesOf rest) := by
  rw [piecesOf]
  split
  · next content after h =>
      obtain ⟨hinside, htext⟩ := placeholder?_eq_some_iff.mp h
      exact absurd htext (hnone content after hinside)
  · rfl

example : piecesOf "<<<a>><<a1>>".toList =
    [.literal "<".toList, .reference none "a", .literal "<<a1>>".toList] := by decide +kernel

/-- Texts are read one character or one placeholder at a time. -/
theorem placeholder_induction {motive : List Char → Prop} (nil : motive [])
    (copy : ∀ char rest,
      (∀ content after, IsInside content → char :: rest ≠ placeholderOf content ++ after) →
      motive rest → motive (char :: rest))
    (placeholder : ∀ content rest property name, IsInside content →
      Refers content property name → motive rest → motive (placeholderOf content ++ rest))
    (text : List Char) : motive text := by
  induction text using piecesOf.induct with
  | case1 => exact nil
  | case2 char rest content after h ih =>
      obtain ⟨hinside, htext⟩ := placeholder?_eq_some_iff.mp h
      obtain ⟨property, name, hrefers⟩ := exists_refers content
      rw [htext]
      exact placeholder content after property name hinside hrefers ih
  | case3 char rest h ih =>
      refine copy char rest (fun content after hinside htext => ?_) ih
      rw [htext, placeholder?_placeholderOf hinside] at h
      cases h

theorem run_bind_eq_ok {α β : Type} {action : Expand α} {next : α → Expand β} {store : Expanded}
    {result : β × Expanded} :
    (action >>= next).run store = .ok result ↔
      ∃ value between, action.run store = .ok (value, between) ∧
        (next value).run between = .ok result := by
  rw [StateT.run_bind]
  cases h : action.run store with
  | error error => simp [bind, Except.bind]
  | ok value =>
      obtain ⟨value, between⟩ := value
      simp [bind, Except.bind, and_assoc]

theorem run_map_eq_ok {α β : Type} {action : Expand α} {change : α → β} {store after : Expanded}
    {result : β} :
    (change <$> action).run store = .ok (result, after) ↔
      ∃ value, action.run store = .ok (value, after) ∧ change value = result := by
  rw [StateT.run_map]
  cases h : action.run store with
  | error error => simp [Functor.map, Except.map]
  | ok value =>
      obtain ⟨value, between⟩ := value
      simp only [Functor.map, Except.map, Except.ok.injEq, Prod.mk.injEq]
      constructor
      · rintro ⟨rfl, rfl⟩
        exact ⟨value, ⟨rfl, rfl⟩, rfl⟩
      · rintro ⟨value', ⟨rfl, rfl⟩, rfl⟩
        exact ⟨rfl, rfl⟩

theorem run_pure_eq_ok {α : Type} {value result : α} {store after : Expanded} :
    (pure value : Expand α).run store = .ok (result, after) ↔ value = result ∧ store = after := by
  rw [StateT.run_pure]
  simp [pure, Except.pure]

theorem run'_eq_ok {α : Type} {action : Expand α} {store : Expanded} {value : α} :
    action.run' store = .ok value ↔ ∃ after, action.run store = .ok (value, after) := by
  rw [StateT.run'_eq]
  cases h : action.run store with
  | error error => simp [Functor.map, Except.map]
  | ok result =>
      obtain ⟨result, after⟩ := result
      simp [Functor.map, Except.map]

theorem expandPieces_consLiteral (expandTarget : String → Expand (List Char)) (char : Char)
    (pieces : List PatternPiece) :
    expandPieces expandTarget (consLiteral char pieces) =
      (char :: ·) <$> expandPieces expandTarget pieces := by
  cases pieces with
  | nil => simp [consLiteral, expandPieces]
  | cons piece pieces => cases piece <;> simp [consLiteral, expandPieces]

theorem expandOwn_consLiteral (owner : String) (seen : List String) (char : Char)
    (pieces : List PatternPiece) :
    expandOwn patterns owner seen (consLiteral char pieces) =
      (fun body => { body with text := char :: body.text }) <$>
        expandOwn patterns owner seen pieces := by
  cases pieces with
  | nil => simp [consLiteral, expandOwn]
  | cons piece pieces => cases piece <;> simp [consLiteral, expandOwn]

/-- What is kept is what placeholders stand for. -/
def Faithful (patterns : List NamedPattern) (store : Expanded) : Prop :=
  ∀ name text, store.lookup name = some text → Anonymous patterns name text

theorem Faithful.nil : Faithful patterns [] := by
  intro name text h
  cases h

theorem Faithful.cons {store : Expanded} {name : String} {text : List Char}
    (hstore : Faithful patterns store) (htext : Anonymous patterns name text) :
    Faithful patterns ((name, text) :: store) := by
  intro other body h
  rw [List.lookup_cons] at h
  split at h
  · next heq =>
      obtain rfl := eq_of_beq heq
      cases h
      exact htext
  · exact hstore other body h

/-- What an expansion may give, from whatever faithful store it starts. -/
def Sound (patterns : List NamedPattern) {α : Type} (action : Expand α) (result : α → Prop) :
    Prop :=
  ∀ store value after, Faithful patterns store → action.run store = .ok (value, after) →
    result value ∧ Faithful patterns after

theorem sound_expandPieces {expandTarget : String → Expand (List Char)}
    (htarget : ∀ name, Sound patterns (expandTarget name) (Anonymous patterns name))
    (text : List Char) :
    Sound patterns (expandPieces expandTarget (piecesOf text))
      (Substituted patterns none text) := by
  induction text using placeholder_induction with
  | nil =>
      intro store body after hstore hrun
      rw [piecesOf, expandPieces, run_pure_eq_ok] at hrun
      obtain ⟨rfl, rfl⟩ := hrun
      exact ⟨.nil, hstore⟩
  | copy char rest hnone ih =>
      intro store body after hstore hrun
      rw [piecesOf_copy hnone, expandPieces_consLiteral, run_map_eq_ok] at hrun
      obtain ⟨body, hrun, rfl⟩ := hrun
      obtain ⟨hbody, hafter⟩ := ih store body after hstore hrun
      exact ⟨.copy hnone hbody, hafter⟩
  | placeholder content rest property name hinside hrefers ih =>
      intro store body after hstore hrun
      rw [piecesOf_placeholder hinside hrefers, expandPieces, run_bind_eq_ok] at hrun
      obtain ⟨text, between, htext, hrun⟩ := hrun
      obtain ⟨body', between', hrest, hrun⟩ := run_bind_eq_ok.mp hrun
      obtain ⟨rfl, rfl⟩ := run_pure_eq_ok.mp hrun
      obtain ⟨⟨target, inner, hfind, hinner, rfl⟩, hbetween⟩ := htarget name _ _ _ hstore htext
      obtain ⟨hbody, hafter⟩ := ih _ _ _ hbetween hrest
      exact ⟨.placeholder hinside hrefers hfind hinner hbody, hafter⟩

theorem run_expandReference {path : List String} {name : String} {text : List Char}
    {store after : Expanded} :
    (expandReference patterns path name).run store = .ok (text, after) ↔
      store.lookup name = some text ∧ store = after ∨
      store.lookup name = none ∧ name ∉ path ∧ ∃ pattern body between,
        find? patterns name = some pattern ∧
        (expandPieces (expandReference patterns (name :: path)) pattern.pieces).run store =
          .ok (body, between) ∧
        groupOf body = text ∧ (name, text) :: between = after := by
  have hget : (get : Expand Expanded).run store = .ok (store, store) := rfl
  rw [expandReference, run_bind_eq_ok]
  simp only [hget, Except.ok.injEq, Prod.mk.injEq]
  constructor
  · rintro ⟨_, _, ⟨rfl, rfl⟩, hrun⟩
    cases hlookup : store.lookup name with
    | some found =>
        rw [hlookup] at hrun
        exact .inl ⟨by rw [(run_pure_eq_ok.mp hrun).1], (run_pure_eq_ok.mp hrun).2⟩
    | none =>
        rw [hlookup] at hrun
        simp only at hrun
        split at hrun
        · cases hrun
        · next hpath =>
            split at hrun
            · cases hrun
            · next pattern hfind =>
                obtain ⟨body, between, hbody, hrun⟩ := run_bind_eq_ok.mp hrun
                cases hrun
                exact .inr ⟨rfl, hpath, pattern, body, between, hfind, hbody, rfl, rfl⟩
  · rintro (⟨hlookup, rfl⟩ | ⟨hlookup, hpath, pattern, body, between, hfind, hbody, rfl, rfl⟩)
    · refine ⟨store, store, ⟨rfl, rfl⟩, ?_⟩
      rw [hlookup]
      rfl
    · refine ⟨store, store, ⟨rfl, rfl⟩, ?_⟩
      rw [hlookup]
      simp only [dif_neg hpath]
      split
      · next h => exact absurd (hfind.symm.trans h) (by simp)
      · next pattern' h =>
          obtain rfl := Option.some.inj (hfind.symm.trans h)
          exact run_bind_eq_ok.mpr ⟨body, between, hbody, rfl⟩

theorem sound_expandReference (path : List String) (name : String) :
    Sound patterns (expandReference patterns path name) (Anonymous patterns name) := by
  induction hmeasure : unvisited (labels patterns) path using Nat.strong_induction_on
    generalizing path name with
  | _ measure ih =>
      intro store text after hstore hrun
      obtain ⟨hlookup, rfl⟩ | ⟨-, hpath, pattern, body, between, hfind, hbody, rfl, rfl⟩ :=
        run_expandReference.mp hrun
      · exact ⟨hstore name text hlookup, hstore⟩
      · have hless : unvisited (labels patterns) (name :: path) < measure :=
          hmeasure ▸ unvisited_cons_lt (mem_labels_of_find? hfind) hpath
        obtain ⟨hbody, hbetween⟩ := sound_expandPieces
          (fun target => ih _ hless (name :: path) target rfl) _ store body between hstore hbody
        have htext : Anonymous patterns name (groupOf body) := ⟨pattern, body, hfind, hbody, rfl⟩
        exact ⟨htext, hbetween.cons htext⟩

theorem run_expandOwn_reference {owner : String} {seen : List String} {property : Option String}
    {name : String} {pieces : List PatternPiece} {store after : Expanded} {body : Body} :
    (expandOwn patterns owner seen (.reference property name :: pieces)).run store =
        .ok (body, after) ↔
      ∃ text between rest,
        (expandReference patterns [owner] name).run store = .ok (text, between) ∧
        (∀ key ∈ property, key ∉ seen) ∧
        (expandOwn patterns owner (property.toList ++ seen) pieces).run between =
          .ok (rest, after) ∧
        Body.mk (written (some owner) property text ++ rest.text)
          (property.toList ++ rest.properties) = body := by
  cases property with
  | none =>
      simp only [expandOwn, run_bind_eq_ok, run_pure_eq_ok]
      constructor
      · rintro ⟨text, between, htext, rest, _, hrest, rfl, rfl⟩
        exact ⟨text, between, rest, htext, by simp, hrest, rfl⟩
      · rintro ⟨text, between, rest, htext, -, hrest, rfl⟩
        exact ⟨text, between, htext, rest, after, hrest, rfl, rfl⟩
  | some key =>
      simp only [expandOwn, run_bind_eq_ok]
      constructor
      · rintro ⟨text, between, htext, hrun⟩
        split at hrun
        · cases hrun
        · next hseen =>
            obtain ⟨rest, between', hrest, hrun⟩ := run_bind_eq_ok.mp hrun
            obtain ⟨rfl, rfl⟩ := run_pure_eq_ok.mp hrun
            exact ⟨text, between, rest, htext, by simpa using hseen, hrest, rfl⟩
      · rintro ⟨text, between, rest, htext, hseen, hrest, rfl⟩
        refine ⟨text, between, htext, ?_⟩
        rw [if_neg (hseen key rfl)]
        exact run_bind_eq_ok.mpr ⟨rest, after, hrest, rfl⟩

theorem sound_expandOwn (owner : String) (seen : List String) (text : List Char) :
    Sound patterns (expandOwn patterns owner seen (piecesOf text))
      (Substituted patterns (some owner) text ·.text) := by
  induction text using placeholder_induction generalizing seen with
  | nil =>
      intro store body after hstore hrun
      rw [piecesOf, expandOwn, run_pure_eq_ok] at hrun
      obtain ⟨rfl, rfl⟩ := hrun
      exact ⟨.nil, hstore⟩
  | copy char rest hnone ih =>
      intro store body after hstore hrun
      rw [piecesOf_copy hnone, expandOwn_consLiteral, run_map_eq_ok] at hrun
      obtain ⟨body, hrun, rfl⟩ := hrun
      obtain ⟨hbody, hafter⟩ := ih seen store body after hstore hrun
      exact ⟨.copy hnone hbody, hafter⟩
  | placeholder content rest property name hinside hrefers ih =>
      intro store body after hstore hrun
      rw [piecesOf_placeholder hinside hrefers, run_expandOwn_reference] at hrun
      obtain ⟨text, between, body, htext, -, hbody, rfl⟩ := hrun
      obtain ⟨⟨target, inner, hfind, hinner, rfl⟩, hbetween⟩ :=
        sound_expandReference _ _ _ _ _ hstore htext
      obtain ⟨hbody, hafter⟩ := ih _ _ _ _ hbetween hbody
      exact ⟨.placeholder hinside hrefers hfind hinner hbody, hafter⟩

/-- What an expansion gives, whatever faithful store it starts from. -/
def Certain (patterns : List NamedPattern) {α : Type} (action : Expand α) (value : α) : Prop :=
  ∀ store, Faithful patterns store →
    ∃ after, Faithful patterns after ∧ action.run store = .ok (value, after)

theorem certain_expandPieces {expandTarget : String → Expand (List Char)} {bound : Nat}
    (htarget : ∀ name text, Anonymous patterns name text → text.length ≤ bound →
      Certain patterns (expandTarget name) text)
    {text body : List Char} (h : Substituted patterns none text body)
    (hlength : body.length ≤ bound) :
    Certain patterns (expandPieces expandTarget (piecesOf text)) body := by
  generalize howner : (none : Option String) = owner at h
  induction h with
  | nil =>
      intro store hstore
      exact ⟨store, hstore, by rw [piecesOf, expandPieces, run_pure_eq_ok]; exact ⟨rfl, rfl⟩⟩
  | copy hnone hrest ih =>
      intro store hstore
      rw [List.length_cons] at hlength
      obtain ⟨after, hafter, hrun⟩ := ih (by omega) howner store hstore
      refine ⟨after, hafter, ?_⟩
      rw [piecesOf_copy hnone, expandPieces_consLiteral, run_map_eq_ok]
      exact ⟨_, hrun, rfl⟩
  | @placeholder _ content rest inner body property name target hinside hrefers hfind hinner hrest
      _ ih =>
      intro store hstore
      subst howner
      rw [written_none, List.length_append] at hlength
      obtain ⟨between, hbetween, htext⟩ :=
        htarget name _ ⟨target, inner, hfind, hinner, rfl⟩ (by omega) store hstore
      obtain ⟨after, hafter, hrun⟩ := ih (by omega) rfl between hbetween
      refine ⟨after, hafter, ?_⟩
      rw [piecesOf_placeholder hinside hrefers, expandPieces, run_bind_eq_ok]
      exact ⟨_, between, htext, run_bind_eq_ok.mpr ⟨_, after, hrun, rfl⟩⟩

/-- Whatever is on the way has a longer expansion than what is expanded within it, so that no
cycle is met. -/
theorem certain_expandReference {path : List String} {name : String} {text : List Char}
    (htext : Anonymous patterns name text)
    (hpath : ∀ outer ∈ path, ∃ body, Anonymous patterns outer body ∧ text.length < body.length) :
    Certain patterns (expandReference patterns path name) text := by
  induction hlength : text.length using Nat.strong_induction_on generalizing path name text with
  | _ length ih =>
      intro store hstore
      cases hlookup : store.lookup name with
      | some kept =>
          obtain rfl := htext.unique (hstore name kept hlookup)
          exact ⟨store, hstore, run_expandReference.mpr (.inl ⟨hlookup, rfl⟩)⟩
      | none =>
          have hnew : name ∉ path := by
            intro hmem
            obtain ⟨body, hbody, hless⟩ := hpath name hmem
            rw [htext.unique hbody] at hless
            exact absurd hless (lt_irrefl _)
          obtain ⟨target, inner, hfind, hinner, rfl⟩ := id htext
          have hshorter : inner.length < length := by
            simp only [groupOf, List.length_append] at hlength
            simp at hlength
            omega
          have hpieces : Certain patterns
              (expandPieces (expandReference patterns (name :: path)) target.pieces) inner := by
            refine certain_expandPieces (fun next body hbody hle => ?_) hinner le_rfl
            refine ih body.length (by omega) hbody (fun outer hmem => ?_) rfl
            cases hmem with
            | head => exact ⟨_, htext, by omega⟩
            | tail _ hmem =>
                obtain ⟨long, hlong, hless⟩ := hpath outer hmem
                exact ⟨long, hlong, by omega⟩
          obtain ⟨between, hbetween, hrun⟩ := hpieces store hstore
          exact ⟨_, hbetween.cons htext, run_expandReference.mpr
            (.inr ⟨hlookup, hnew, target, inner, between, hfind, hrun, rfl, rfl⟩)⟩

theorem certain_expandOwn {owner : String} {outer : List Char}
    (houter : Anonymous patterns owner outer) {text plain : List Char} (seen : List String)
    (hplain : Substituted patterns none text plain) (hlength : plain.length < outer.length)
    {store after : Expanded} {body : Body} (hstore : Faithful patterns store)
    (hrun : (expandOwn patterns owner seen (piecesOf text)).run store = .ok (body, after)) :
    Certain patterns (expandOwn patterns owner seen (piecesOf text)) body := by
  generalize howner : (none : Option String) = none' at hplain
  induction hplain generalizing seen store body with
  | nil =>
      intro other hother
      rw [piecesOf, expandOwn, run_pure_eq_ok] at hrun
      exact ⟨other, hother, by rw [piecesOf, expandOwn, run_pure_eq_ok]; exact ⟨hrun.1, rfl⟩⟩
  | copy hnone hrest ih =>
      intro other hother
      rw [List.length_cons] at hlength
      rw [piecesOf_copy hnone, expandOwn_consLiteral] at hrun ⊢
      obtain ⟨body, hrest, rfl⟩ := run_map_eq_ok.mp hrun
      obtain ⟨last, hlast, hagain⟩ := ih seen (by omega) hstore hrest howner other hother
      exact ⟨last, hlast, run_map_eq_ok.mpr ⟨body, hagain, rfl⟩⟩
  | @placeholder _ content rest inner plain property name target hinside hrefers hfind hinner hrest
      _ ih =>
      intro other hother
      subst howner
      rw [written_none, List.length_append] at hlength
      rw [piecesOf_placeholder hinside hrefers] at hrun ⊢
      obtain ⟨text, between, body, htext, hseen, hbody, rfl⟩ := run_expandOwn_reference.mp hrun
      obtain ⟨hname, hbetween⟩ := sound_expandReference _ _ _ _ _ hstore htext
      obtain rfl := hname.unique ⟨target, inner, hfind, hinner, rfl⟩
      have hpath : ∀ visited ∈ [owner], ∃ long, Anonymous patterns visited long ∧
          (groupOf inner).length < long.length := by
        intro visited hmem
        obtain rfl := List.mem_singleton.mp hmem
        exact ⟨outer, houter, by omega⟩
      obtain ⟨middle, hmiddle, htext'⟩ := certain_expandReference hname hpath other hother
      obtain ⟨last, hlast, hagain⟩ :=
        ih (property.toList ++ seen) (by omega) hbetween hbody rfl middle hmiddle
      exact ⟨last, hlast, run_expandOwn_reference.mpr
        ⟨_, middle, body, htext', hseen, hagain, rfl⟩⟩

theorem nodup_labels_of_repeatedName? {seen : List String}
    (h : repeatedName? seen patterns = none) :
    (labels patterns).Nodup ∧ ∀ label ∈ labels patterns, label ∉ seen := by
  induction patterns generalizing seen with
  | nil => simp [labels]
  | cons pattern patterns ih =>
      rw [repeatedName?] at h
      split at h
      · cases h
      · next hnew =>
          obtain ⟨hnodup, hunseen⟩ := ih h
          simp only [labels, List.map_cons, List.nodup_cons, List.mem_cons, forall_eq_or_imp]
          refine ⟨⟨fun hmem => ?_, hnodup⟩, hnew, fun label hmem hseen => ?_⟩
          · exact hunseen _ hmem List.mem_cons_self
          · exact hunseen label hmem (List.mem_cons_of_mem _ hseen)

theorem find?_label (h : checkDeclarations patterns = .ok ()) {pattern : NamedPattern}
    (hmem : pattern ∈ patterns) : find? patterns pattern.label = some pattern := by
  have hnodup : (labels patterns).Nodup := by
    rw [checkDeclarations] at h
    split at h
    · cases h
    · next hnone => exact (nodup_labels_of_repeatedName? hnone).1
  cases hfind : find? patterns pattern.label with
  | none =>
      rw [find?, List.find?_eq_none] at hfind
      simpa using hfind pattern hmem
  | some other =>
      obtain ⟨hother, hlabel⟩ := mem_of_find? hfind
      rw [List.inj_on_of_nodup_map hnodup hother hmem hlabel]

/-- What was expanded for a pattern at some point. -/
def Expands (patterns : List NamedPattern) (pattern : NamedPattern) (entry : String × Body) :
    Prop :=
  entry.1 = pattern.label ∧ ∃ store after, Faithful patterns store ∧
    (expandOwn patterns pattern.label [] pattern.pieces).run store = .ok (entry.2, after)

theorem sound_expandAll (list : List NamedPattern) :
    Sound patterns (expandAll patterns list)
      (List.Forall₂ (Expands patterns) (list.filter (!·.isPrivate))) := by
  induction list with
  | nil =>
      intro store bodies after hstore hrun
      rw [expandAll, run_pure_eq_ok] at hrun
      obtain ⟨rfl, rfl⟩ := hrun
      exact ⟨.nil, hstore⟩
  | cons pattern list ih =>
      intro store bodies after hstore hrun
      rw [expandAll] at hrun
      split at hrun
      · next hprivate =>
          rw [List.filter_cons_of_neg (by simpa using hprivate)]
          exact ih store bodies after hstore hrun
      · next hpublic =>
          obtain ⟨body, between, hbody, hrun⟩ := run_bind_eq_ok.mp hrun
          obtain ⟨bodies', after', hrest, hrun⟩ := run_bind_eq_ok.mp hrun
          obtain ⟨rfl, rfl⟩ := run_pure_eq_ok.mp hrun
          obtain ⟨-, hbetween⟩ := sound_expandOwn _ _ _ _ _ _ hstore hbody
          obtain ⟨hbodies, hafter⟩ := ih _ _ _ hbetween hrest
          rw [List.filter_cons_of_pos (by simpa using hpublic)]
          exact ⟨.cons ⟨rfl, store, between, hstore, hbody⟩ hbodies, hafter⟩

theorem expands_of_expand {bodies : List (String × Body)} (h : expand patterns = .ok bodies) :
    checkDeclarations patterns = .ok () ∧
      List.Forall₂ (Expands patterns) (patterns.filter (!·.isPrivate)) bodies := by
  cases hcheck : checkDeclarations patterns with
  | error error => simp [expand, hcheck, bind, Except.bind] at h
  | ok =>
      refine ⟨rfl, ?_⟩
      cases hrun : (expandAll patterns patterns).run' [] with
      | error error => simp only [expand, hcheck, hrun, bind, Except.bind, reduceCtorEq] at h
      | ok found =>
          obtain ⟨after, hrun'⟩ := run'_eq_ok.mp hrun
          have hfound : found = bodies := by
            simp only [expand, hcheck, hrun, bind, Except.bind] at h
            split at h
            · cases h
            · exact Except.ok.inj h
          rw [← hfound]
          exact (sound_expandAll patterns [] found after .nil hrun').1

theorem names_of_expand {bodies : List (String × Body)} (h : expand patterns = .ok bodies) :
    bodies.map Prod.fst = (patterns.filter (!·.isPrivate)).map label := by
  obtain ⟨-, hbodies⟩ := expands_of_expand h
  clear h
  generalize patterns.filter (!·.isPrivate) = declared at hbodies ⊢
  induction hbodies with
  | nil => rfl
  | cons hentry _ ih => rw [List.map_cons, List.map_cons, hentry.1, ih]

/-- What may have been kept: what was expanded in the place of placeholders, in any order. -/
inductive Filled (patterns : List NamedPattern) : Expanded → Prop
  | nothing : Filled patterns []
  | more {store after : Expanded} {path : List String} {name : String} {text : List Char}
      (hstore : Filled patterns store)
      (hrun : (expandReference patterns path name).run store = .ok (text, after)) :
      Filled patterns after

theorem Filled.faithful {store : Expanded} (h : Filled patterns store) :
    Faithful patterns store := by
  induction h with
  | nothing => exact .nil
  | more _ hrun ih => exact (sound_expandReference _ _ _ _ _ ih hrun).2

theorem Filled.expandOwn {owner : String} {pieces : List PatternPiece} {seen : List String}
    {store after : Expanded} {body : Body} (h : Filled patterns store)
    (hrun : (NamedPattern.expandOwn patterns owner seen pieces).run store = .ok (body, after)) :
    Filled patterns after := by
  induction pieces generalizing seen store body with
  | nil =>
      rw [NamedPattern.expandOwn, run_pure_eq_ok] at hrun
      exact hrun.2 ▸ h
  | cons piece pieces ih =>
      cases piece with
      | literal text =>
          rw [NamedPattern.expandOwn, run_bind_eq_ok] at hrun
          obtain ⟨rest, between, hrest, hrun⟩ := hrun
          obtain ⟨-, rfl⟩ := run_pure_eq_ok.mp hrun
          exact ih h hrest
      | reference property name =>
          obtain ⟨text, between, rest, htext, -, hrest, -⟩ := run_expandOwn_reference.mp hrun
          exact ih (h.more htext) hrest

theorem Expands.substituted {pattern : NamedPattern} {entry : String × Body}
    (h : Expands patterns pattern entry) :
    Substituted patterns (some pattern.label) pattern.source.toList entry.2.text := by
  obtain ⟨-, store, after, hstore, hrun⟩ := h
  exact (sound_expandOwn _ _ _ _ _ _ hstore hrun).1

theorem Expands.certain (hcheck : checkDeclarations patterns = .ok ()) {pattern : NamedPattern}
    (hmem : pattern ∈ patterns) {entry : String × Body} (h : Expands patterns pattern entry) :
    Certain patterns (expandOwn patterns pattern.label [] pattern.pieces) entry.2 := by
  obtain ⟨plain, hplain⟩ := h.substituted.exists_plain
  obtain ⟨-, store, after, hstore, hrun⟩ := h
  refine certain_expandOwn ⟨pattern, plain, find?_label hcheck hmem, hplain, rfl⟩ [] hplain ?_
    hstore hrun
  simp [groupOf]
  omega

theorem sourceOf_eq (bodies : List (String × Body)) :
    Grammar.sourceOf bodies =
      ['|'].intercalate (bodies.map fun entry => namedGroup entry.1 entry.2.text) := by
  induction bodies with
  | nil => rfl
  | cons entry rest ih =>
      cases rest with
      | nil => simp [Grammar.sourceOf]
      | cons next rest =>
          rw [Grammar.sourceOf, ih]
          · simp [List.intercalate]
          · simp

theorem compile_eq_ok [UnicodeClasses] {bodies : List (String × Body)}
    (h : expand patterns = .ok bodies) {grammar : Grammar}
    (hcompile : Grammar.compile patterns = .ok grammar) :
    ∃ expression, Expression.read? (Grammar.sourceOf bodies) = some expression ∧
      grammar = ⟨String.ofList (Grammar.sourceOf bodies), expression.pattern,
        bodies.map fun entry => Grammar.ruleOf entry.1 entry.2⟩ ∧
      ∀ rule ∈ grammar.rules, ∀ group ∈ Grammar.groupsOf rule, group ∈ grammar.pattern.groups := by
  simp only [Grammar.compile, h, bind, Except.bind] at hcompile
  split at hcompile
  · cases hcompile
  · next expression hread =>
      split at hcompile
      · next hgroups =>
          cases hcompile
          refine ⟨expression, hread, rfl, fun rule hrule group hgroup => ?_⟩
          simpa using List.all_eq_true.mp (List.all_eq_true.mp hgroups rule hrule) group hgroup
      · cases hcompile

theorem source_of_compile [UnicodeClasses] {bodies : List (String × Body)}
    (h : expand patterns = .ok bodies) {grammar : Grammar}
    (hcompile : Grammar.compile patterns = .ok grammar) :
    grammar.source = String.ofList (Grammar.sourceOf bodies) := by
  obtain ⟨expression, -, rfl, -⟩ := compile_eq_ok h hcompile
  rfl

theorem expand_ne_nil {bodies : List (String × Body)} (h : expand patterns = .ok bodies) :
    bodies ≠ [] := by
  rintro rfl
  cases hcheck : checkDeclarations patterns with
  | error error => simp [expand, hcheck, bind, Except.bind] at h
  | ok =>
      cases hrun : (expandAll patterns patterns).run' [] with
      | error error => simp only [expand, hcheck, hrun, bind, Except.bind, reduceCtorEq] at h
      | ok found =>
          simp only [expand, hcheck, hrun, bind, Except.bind] at h
          split at h
          · cases h
          · next hfound =>
              cases h
              exact hfound rfl

/-- Expansion gives plain substitution, and gives it again whatever was kept from earlier on.
The groups of the public patterns in order of declaration, with their bodies, make up the
composed source. -/
theorem expand_substitutes [UnicodeClasses] {bodies : List (String × Body)}
    (h : expand patterns = .ok bodies) :
    List.Forall₂
      (fun pattern entry => entry.1 = pattern.label ∧
        ∀ text, Substituted patterns (some pattern.label) pattern.source.toList text ↔
          text = entry.2.text)
      (patterns.filter (!·.isPrivate)) bodies ∧
    Grammar.sourceOf bodies = ['|'].intercalate (bodies.map fun entry =>
      "(?P<".toList ++ entry.1.toList ++ '>' :: entry.2.text ++ [')']) ∧
    (∀ grammar, Grammar.compile patterns = .ok grammar →
      grammar.source = String.ofList (Grammar.sourceOf bodies)) ∧
    ∀ store, Filled patterns store →
      List.Forall₂
        (fun pattern entry => ∃ after, Filled patterns after ∧
          (expandOwn patterns pattern.label [] pattern.pieces).run store = .ok (entry.2, after))
        (patterns.filter (!·.isPrivate)) bodies := by
  obtain ⟨hcheck, hbodies⟩ := expands_of_expand h
  refine ⟨hbodies.imp ?_, sourceOf_eq bodies, fun grammar => source_of_compile h, ?_⟩
  · intro pattern entry hentry
    exact ⟨hentry.1, fun text => ⟨fun htext => htext.unique hentry.substituted,
      fun heq => heq ▸ hentry.substituted⟩⟩
  · intro store hstore
    have hmem : ∀ pattern ∈ patterns.filter (!·.isPrivate), pattern ∈ patterns :=
      fun pattern h => List.mem_of_mem_filter h
    refine ((List.forall₂_and_left _ _).mpr ⟨hmem, hbodies⟩).imp fun pattern entry hentry => ?_
    obtain ⟨after, -, hrun⟩ := hentry.2.certain hcheck hentry.1 store hstore.faithful
    exact ⟨after, hstore.expandOwn hrun, hrun⟩

def digitRange : List NamedPattern :=
  [⟨"!digit", "[0-9]"⟩, ⟨"range", "<<digit>>-<<last:digit>>"⟩]

theorem expand_substitutes_range :
    ∃ bodies, expand digitRange = .ok bodies ∧
      Grammar.sourceOf bodies = "(?P<range>(?:[0-9])-(?P<range_last>(?:[0-9])))".toList ∧
      Substituted digitRange (some "range") "<<digit>>-<<last:digit>>".toList
        "(?:[0-9])-(?P<range_last>(?:[0-9]))".toList := by
  have hsome : (expand digitRange).toOption.map (List.map fun entry => (entry.1, entry.2.text)) =
      some [("range", "(?:[0-9])-(?P<range_last>(?:[0-9]))".toList)] := by decide +kernel
  cases h : expand digitRange with
  | error error => simp [h, Except.toOption] at hsome
  | ok bodies =>
      obtain ⟨hbodies, hsource, -, -⟩ := expand_substitutes h
      simp only [h, Except.toOption, Option.map_some, Option.some.injEq] at hsome
      obtain ⟨⟨name, body⟩, rfl, hentry⟩ := List.map_eq_singleton_iff.mp hsome
      simp only [Prod.mk.injEq] at hentry
      have hpublic : digitRange.filter (!·.isPrivate) =
          [⟨"range", "<<digit>>-<<last:digit>>"⟩] := by decide
      rw [hpublic, List.forall₂_cons] at hbodies
      refine ⟨_, rfl, ?_, (hbodies.1.2 _).mpr hentry.2.symm⟩
      rw [hsource]
      simp [hentry]

end NamedPattern
end DocMarkup
