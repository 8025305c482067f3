import DocMarkup.Proofs.Grammar.Partition

namespace DocMarkup

namespace Grammar

variable {grammar : Grammar} {text : List Char} {token : Token}

structure Token.MatchOf (grammar : Grammar) (text : List Char) (token : Token)
    (found : Pattern.Match) : Prop where
  sound : found.Sound ⟨none, text⟩ grammar.pattern
  eq : token = grammar.matchToken text found

/-- The token is a stretch of the text, of a match or of none. -/
inductive Token.OfText (grammar : Grammar) (text : List Char) (token : Token) : Prop
  | other (first last : Nat) (h : token = otherToken text first last)
  | found (found : Pattern.Match) (h : token.MatchOf grammar text found)

namespace Cursor

theorem Gives.ofText {cursor after : Cursor} (h : Gives grammar text cursor token after)
    (hpending : ∀ held, cursor.pending = some held → held.OfText grammar text) :
    token.OfText grammar text ∧
      ∀ held, after.pending = some held → held.OfText grammar text := by
  cases h with
  | held => exact ⟨hpending token rfl, fun _ h => by cases h⟩
  | rest => exact ⟨.other _ _ rfl, fun _ h => by cases h⟩
  | @gap position searchFrom found hseek =>
      refine ⟨.other _ _ rfl, fun held h => ?_⟩
      cases h
      exact .found found ⟨seek?_matches hseek, rfl⟩
  | @hit position searchFrom found hseek =>
      exact ⟨.found found ⟨seek?_matches hseek, rfl⟩, fun _ h => by cases h⟩

theorem ofText_of_mem_tokens {cursor : Cursor}
    (hpending : ∀ held, cursor.pending = some held → held.OfText grammar text) :
    ∀ token ∈ cursor.tokens grammar text, token.OfText grammar text := by
  fun_induction Cursor.tokens grammar text cursor with
  | case1 cursor after hnext =>
      intro token hmem
      cases hmem
  | case2 cursor token after hnext ih =>
      obtain ⟨htoken, hafter⟩ := (gives_of_next hnext).ofText hpending
      intro other hmem
      cases hmem with
      | head => exact htoken
      | tail _ hmem => exact ih hafter other hmem

end Cursor

theorem ofText_of_mem_scan {text : String} (h : token ∈ grammar.scan text) :
    token.OfText grammar text.toList :=
  Cursor.ofText_of_mem_tokens (fun _ h => by cases h) token h

theorem Token.OfText.taken {index : Nat} (h : token.OfText grammar text)
    (hrule : token.rule = some index) :
    ∃ found rule, found.Sound ⟨none, text⟩ grammar.pattern ∧
      grammar.taken? found = some (index, rule) ∧ token.name = rule.name ∧
      token.text = String.ofList (piece text found.start found.stop) ∧
      token.properties = captured rule (piece text found.start found.stop) found := by
  cases h with
  | other first last h =>
      rw [h] at hrule
      cases hrule
  | found found h =>
      obtain ⟨hsound, rfl⟩ := h
      cases htaken : grammar.taken? found with
      | none =>
          simp only [matchToken, htaken] at hrule
          cases hrule
      | some taken =>
          obtain ⟨place, rule⟩ := taken
          simp only [matchToken, htaken] at hrule ⊢
          cases hrule
          exact ⟨found, rule, hsound, htaken, rfl, rfl, rfl⟩

theorem start_mem_of_taken? {found : Pattern.Match} {index : Nat} {rule : Rule}
    (h : grammar.taken? found = some (index, rule)) :
    rule ∈ grammar.rules ∧ ∃ position, (.start rule.name, position) ∈ found.passed := by
  unfold taken? at h
  simp only at h
  split at h
  · next place first hindex hfind =>
      cases h
      refine ⟨List.mem_of_find?_eq_some hfind, ?_⟩
      have hspan := List.find?_some hfind
      simp only [Pattern.Match.span?] at hspan
      split at hspan
      · next distance _ hstart _ => exact ⟨_, Pattern.Match.mem_passed_of_lookup hstart⟩
      · cases hspan
  · cases h

theorem piece_eq_cons {first last : Nat} {char : Char} (hlt : first < last)
    (hchar : text[first]? = some char) :
    piece text first last = char :: piece text (first + 1) last := by
  have htake : (text.take last)[first]? = some char := by
    rw [List.getElem?_take_of_lt hlt, hchar]
  obtain ⟨hlength, hget⟩ := List.getElem?_eq_some_iff.mp htake
  rw [piece, List.drop_eq_getElem_cons hlength, hget, piece]

theorem exists_position_of_mem_piece {first last : Nat} {char : Char}
    (h : char ∈ piece text first last) :
    ∃ position, first ≤ position ∧ position < last ∧ text[position]? = some char := by
  obtain ⟨offset, hoffset⟩ := List.mem_iff_getElem?.mp h
  rw [piece, List.getElem?_drop, List.getElem?_take] at hoffset
  split at hoffset
  · next hlt => exact ⟨first + offset, Nat.le_add_right _ _, hlt, hoffset⟩
  · cases hoffset

end Grammar

end DocMarkup
