import DocMarkup.Proofs.Comment.Written

/-!
Tokens in their context.

Each token says something about the text from where it starts. A construct is read from that text
by the runs of its kind, each taking as much as it can, and no kind that comes before its own could
have read anything there. Between constructs no kind could have read anything at any place.
-/

namespace DocMarkup

namespace Grammar

theorem toList_otherToken (text : List Char) (first last : Nat) :
    (otherToken text first last).text.toList = piece text first last :=
  String.toList_ofList

theorem Choice.toList_token (choice : Choice) (text : List Char) (place : Nat) :
    (choice.token text place).text.toList = piece text place (place + choice.found.length) :=
  String.toList_ofList

namespace Reference

def charsOf (tokens : List Token) : List Char :=
  tokens.flatMap (·.text.toList)

variable {alternatives : List Alternative} {text : List Char} {last place stop : Nat}
  {token : Token} {before after : List Token}

/-- What a token stands for, from `place` to `stop`. -/
inductive Stands (alternatives : List Alternative) (text : List Char) (place stop : Nat) :
    Token → Prop
  | gap (hpasses : ∀ position, place ≤ position → position < stop →
      Passes alternatives text position) :
      Stands alternatives text place stop (otherToken text place stop)
  | choice {choice : Choice}
      (hchoice : preferred? alternatives (Subject.behind ⟨none, text⟩ place) = some choice)
      (hstop : stop = place + choice.found.length) :
      Stands alternatives text place stop (choice.token text place)

theorem Stands.toList_text (h : Stands alternatives text place stop token) :
    token.text.toList = piece text place stop := by
  cases h with
  | gap => exact toList_otherToken text place stop
  | choice _ hstop => rw [hstop, Choice.toList_token]

/-- Tokens that stand one after the other from `place` to the end of the text. -/
inductive Tiles (alternatives : List Alternative) (text : List Char) : Nat → List Token → Prop
  | nil {place : Nat} (hend : text.length ≤ place) : Tiles alternatives text place []
  | cons {place stop : Nat} {token : Token} {rest : List Token} (hle : place ≤ stop)
      (hstands : Stands alternatives text place stop token)
      (hrest : Tiles alternatives text stop rest) :
      Tiles alternatives text place (token :: rest)

theorem tiles_tokens (alternatives : List Alternative) (text : List Char) (last : Nat) :
    Tiles alternatives text last (tokens alternatives text last) := by
  fun_induction tokens alternatives text last with
  | case1 last hnext hlt =>
      refine .cons (Nat.le_of_lt hlt) (.gap fun position hfirst hlast => ?_) (.nil (Nat.le_refl _))
      refine passes_of_next? hfirst (Nat.le_of_lt hlast) fun _ _ hother => ?_
      cases hnext.symm.trans hother
  | case2 last hnext hge => exact .nil (Nat.le_of_not_lt hge)
  | case3 last place choice hnext ih =>
      obtain ⟨hle, hlength, -, hchoice⟩ := next?_sound hnext
      have hfrom : Tiles alternatives text place
          (choice.token text place :: tokens alternatives text (place + choice.found.length)) :=
        .cons (Nat.le_add_right _ _) (.choice hchoice rfl) ih
      split
      · refine .cons hle (.gap fun position hfirst hlast => ?_) hfrom
        refine passes_of_next? hfirst (by omega) fun _ _ hother => ?_
        cases hnext.symm.trans hother
        exact hlast
      · next hge =>
          rw [Nat.le_antisymm hle (Nat.le_of_not_lt hge)]
          exact hfrom

theorem Tiles.charsOf_eq {tokens : List Token} (h : Tiles alternatives text place tokens) :
    charsOf tokens = text.drop place := by
  induction h with
  | nil hend => exact (List.drop_eq_nil_of_le hend).symm
  | cons hle hstands _ ih =>
      rw [charsOf, List.flatMap_cons, ← charsOf, ih, hstands.toList_text, piece_append_drop text hle]

theorem Tiles.exists_stands (h : Tiles alternatives text last (before ++ token :: after)) :
    ∃ place stop, place ≤ stop ∧ Stands alternatives text place stop token ∧
      text.drop last = charsOf before ++ text.drop place ∧ charsOf after = text.drop stop := by
  induction before generalizing last with
  | nil =>
      cases h with
      | cons hle hstands hrest => exact ⟨_, _, hle, hstands, rfl, hrest.charsOf_eq⟩
  | cons first before ih =>
      cases h with
      | cons hle hfirst hrest =>
          obtain ⟨place, stop, hstop, hstands, hdrop, hafter⟩ := ih hrest
          refine ⟨place, stop, hstop, hstands, ?_, hafter⟩
          rw [charsOf, List.flatMap_cons, ← charsOf, List.append_assoc, ← hdrop,
            hfirst.toList_text, piece_append_drop text hle]

end Reference

end Grammar

namespace ConstructKind

def Precedes (first second : ConstructKind) : Prop :=
  first.ctorIdx < second.ctorIdx

instance (first second : ConstructKind) : Decidable (first.Precedes second) :=
  inferInstanceAs (Decidable (_ < _))

end ConstructKind

namespace Comment

open Grammar (Alternative)

theorem body_of_kind (kind : ConstructKind) :
    ∃ name, bodies[kind.ctorIdx]? = some (name, sequence (kind.runs.map Run.pattern)) := by
  cases kind <;> exact ⟨_, rfl⟩

theorem ctorIdx_of_bodies {index : Nat} {entry : String × Pattern} {kind : ConstructKind}
    (h : bodies[index]? = some entry) (hkind : ConstructKind.ofName? entry.1 = some kind) :
    kind.ctorIdx = index := by
  have hkinds : bodies.map (fun entry => (ConstructKind.ofName? entry.1).map (·.ctorIdx)) =
      (List.range bodies.length).map some := by
    decide +kernel
  have hlt : index < bodies.length := (List.getElem?_eq_some_iff.mp h).1
  have hindex := congrArg (·[index]?) hkinds
  simp only [List.getElem?_map, h, hkind, List.getElem?_range hlt, Option.map_some,
    Option.some.injEq] at hindex
  exact hindex

theorem not_readable_of_preferred? {subject : Subject} {choice : Grammar.Choice}
    {kind earlier : ConstructKind}
    (h : Grammar.Reference.preferred? alternatives subject = some choice)
    (hkind : ConstructKind.ofName? choice.alternative.name = some kind)
    (hprecedes : earlier.Precedes kind) : ¬ Readable earlier.runs subject.text := by
  obtain ⟨before, after, hsplit, -, -, hbefore⟩ := Grammar.matches_of_preferred? h
  have hnamed (index : Nat) : bodies[index]? = alternatives[index]?.map Alternative.named := by
    rw [← named_alternatives, List.getElem?_map]
  have hself : bodies[before.length]? = some choice.alternative.named := by
    rw [hnamed, hsplit, List.getElem?_append_right (Nat.le_refl _), Nat.sub_self]
    rfl
  have hlt : earlier.ctorIdx < before.length := ctorIdx_of_bodies hself hkind ▸ hprecedes
  obtain ⟨name, hbody⟩ := body_of_kind earlier
  rw [hnamed, hsplit, List.getElem?_append_left hlt] at hbody
  obtain ⟨other, hother, heq⟩ := Option.map_eq_some_iff.mp hbody
  have hnone := hbefore other (List.mem_of_getElem? hother)
  rw [show other.pattern = _ from (Prod.mk.inj heq).2] at hnone
  exact fun hreadable => hreadable.match?_ne_none hnone

theorem not_passes_of_readable {text : List Char} {position : Nat} {kind : ConstructKind}
    (h : Readable kind.runs (text.drop position)) :
    ¬ Grammar.Reference.Passes alternatives text position := by
  obtain ⟨name, hbody⟩ := body_of_kind kind
  have hreadable : Readable kind.runs (Subject.behind ⟨none, text⟩ position).text := h
  obtain ⟨_, _, htakes⟩ := hreadable.takes
  exact not_passes_of_takes (List.mem_of_getElem? hbody) htakes

def charsOf (tokens : List Token) : List Char :=
  tokens.flatMap (·.text.toList)

theorem tokens_eq {grammar : Grammar} (h : IsGrammar grammar) (text : String) :
    tokens grammar text = tokens Renderer.bare.grammar text := by
  rw [tokens, tokens, h.scan_eq, Renderer.isGrammar_bare.scan_eq]

/-- How a token is met in a text, `rest` being what follows it. -/
inductive Met (rest : List Char) : Token → Prop
  | gap {chars : List Char}
      (hpasses : ∀ first last, chars = first ++ last → last ≠ [] →
        ∀ kind : ConstructKind, ¬ Readable kind.runs (last ++ rest)) :
      Met rest ⟨.other, String.ofList chars⟩
  | construct {kind : ConstructKind} {matched : Grammar.Token} {values : List (String × String)}
      (hlongest : Longest kind.runs (matched.text.toList ++ rest) matched.text.toList values)
      (hcaptures : Captures kind matched.text.toList values matched)
      (hfirst : ∀ earlier : ConstructKind, earlier.Precedes kind →
        ¬ Readable earlier.runs (matched.text.toList ++ rest)) :
      Met rest ⟨kind.construct matched, matched.text⟩

theorem Met.exists_matched {rest : List Char} {token : Token} (h : Met rest token)
    {kind : ConstructKind} (hkind : token.construct.kind? = some kind) :
    ∃ matched values, token.construct = kind.construct matched ∧
      Longest kind.runs (token.text.toList ++ rest) token.text.toList values ∧
      Captures kind token.text.toList values matched ∧
      ∀ earlier : ConstructKind, earlier.Precedes kind →
        ¬ Readable earlier.runs (token.text.toList ++ rest) := by
  cases h with
  | gap => cases hkind
  | @construct other matched values hlongest hcaptures hfirst =>
      rw [Construct.kind?_construct, Option.some.injEq] at hkind
      subst hkind
      exact ⟨matched, values, rfl, hlongest, hcaptures, hfirst⟩

theorem met_of_stands {text : List Char} {place stop : Nat} {matched : Grammar.Token}
    (hle : place ≤ stop) (h : Grammar.Reference.Stands alternatives text place stop matched) :
    Met (text.drop stop) ⟨constructOf matched, matched.text⟩ := by
  have hpiece := Grammar.piece_append_drop text hle
  cases h with
  | gap hpasses =>
      refine .gap fun first last heq hne kind hreadable => ?_
      rw [heq, List.append_assoc] at hpiece
      have hlength := congrArg List.length heq
      have hlast := List.length_pos_iff.mpr hne
      rw [Grammar.piece, List.length_drop, List.length_take, List.length_append] at hlength
      have hthere : Readable kind.runs (text.drop (place + first.length)) := by
        rwa [← List.drop_drop, ← hpiece, List.drop_left]
      exact not_passes_of_readable hthere (hpasses _ (Nat.le_add_right _ _) (by omega))
  | @choice choice hchoice hstop =>
      obtain ⟨kind, values, hkind, hlongest, hcaptures⟩ := exists_captures hchoice
      have hconstruct : constructOf (choice.token text place) =
          kind.construct (choice.token text place) := by
        rw [constructOf]
        simp only [Grammar.Choice.token, hkind]
      have htext : text.drop place = (choice.token text place).text.toList ++ text.drop stop := by
        rw [choice.toList_token, ← hstop, hpiece]
      rw [htext] at hlongest
      rw [hconstruct]
      refine .construct hlongest hcaptures fun earlier hprecedes => ?_
      rw [← htext]
      exact not_readable_of_preferred? hchoice hkind hprecedes

theorem met_of_tokens {grammar : Grammar} (hgrammar : IsGrammar grammar) {text : String}
    {before after : List Token} {token : Token}
    (h : tokens grammar text = before ++ token :: after) :
    text.toList = charsOf before ++ token.text.toList ++ charsOf after ∧
      Met (charsOf after) token := by
  rw [tokens, hgrammar.scan_eq] at h
  obtain ⟨first, rest, hsplit, rfl, hrest⟩ := List.map_eq_append_iff.mp h
  obtain ⟨matched, last, rfl, rfl, rfl⟩ := List.map_eq_cons_iff.mp hrest
  have htiles := Grammar.Reference.tiles_tokens alternatives text.toList 0
  rw [hsplit] at htiles
  obtain ⟨place, stop, hle, hstands, hbefore, hafter⟩ := htiles.exists_stands
  have hchars (tokens : List Grammar.Token) :
      charsOf (tokens.map fun token => ⟨constructOf token, token.text⟩) =
        Grammar.Reference.charsOf tokens := List.flatMap_map ..
  rw [hchars, hchars, hafter]
  refine ⟨?_, met_of_stands hle hstands⟩
  rw [List.append_assoc, hstands.toList_text, Grammar.piece_append_drop _ hle, ← hbefore,
    List.drop_zero]

end Comment

end DocMarkup
