import DocMarkup.Grammar.Scan
import DocMarkup.Proofs.Pattern.Soundness
import Mathlib.Logic.Function.Iterate

/-!
Scanning cuts a text into pieces that make it up again.

The tokens that a cursor has given reach up to a position of the text. A token that is pending
leads from there to the cursor, and the next search never starts before the cursor. Each step
keeps this, whichever pattern is searched for and whether or not it matches nothing.
-/

namespace DocMarkup

namespace Grammar

theorem byteLength_append (first second : List Char) :
    byteLength (first ++ second) = byteLength first + byteLength second := by
  induction first with
  | nil => simp [byteLength]
  | cons char rest ih => simp only [List.cons_append, byteLength, ih, Nat.add_assoc]

theorem utf8ByteSize_ofList (chars : List Char) :
    (String.ofList chars).utf8ByteSize = byteLength chars := by
  induction chars with
  | nil => rfl
  | cons char rest ih =>
      rw [← List.singleton_append, String.ofList_append, String.utf8ByteSize_append, ih,
        byteLength_append, ← String.singleton_eq_ofList, String.utf8ByteSize_singleton]
      rfl

theorem byteLength_pos {chars : List Char} (h : chars ≠ []) : 0 < byteLength chars := by
  cases chars with
  | nil => contradiction
  | cons char rest => exact Nat.add_pos_left (Char.utf8Size_pos char) _

theorem take_append_piece (text : List Char) {first last : Nat} (h : first ≤ last) :
    text.take first ++ piece text first last = text.take last := by
  calc text.take first ++ piece text first last
      _ = (text.take last).take first ++ (text.take last).drop first := by
          rw [List.take_take, Nat.min_eq_left h, piece]
      _ = text.take last := List.take_append_drop first (text.take last)

theorem piece_append_drop (text : List Char) {first last : Nat} (h : first ≤ last) :
    piece text first last ++ text.drop last = text.drop first := by
  have hwhole : text.take first ++ (piece text first last ++ text.drop last) =
      text.take first ++ text.drop first := by
    rw [← List.append_assoc, take_append_piece text h, List.take_append_drop,
      List.take_append_drop]
  exact List.append_cancel_left hwhole

theorem byteLength_take_add_piece (text : List Char) {first last : Nat} (h : first ≤ last) :
    byteLength (text.take first) + byteLength (piece text first last) =
      byteLength (text.take last) := by
  rw [← byteLength_append, take_append_piece text h]

theorem piece_ne_nil {text : List Char} {first last : Nat} (hlt : first < last)
    (hle : last ≤ text.length) : piece text first last ≠ [] := by
  apply List.ne_nil_of_length_pos
  rw [piece, List.length_drop, List.length_take]
  omega

/-- The token is the text from one position to another. -/
structure Token.Covers (text : List Char) (token : Token) (first last : Nat) : Prop where
  lt : first < last
  le : last ≤ text.length
  text_eq : token.text = String.ofList (piece text first last)
  start_eq : token.start = byteLength (text.take first)
  stop_eq : token.stop = byteLength (text.take last)

theorem otherToken_covers {text : List Char} {first last : Nat} (hlt : first < last)
    (hle : last ≤ text.length) : (otherToken text first last).Covers text first last :=
  ⟨hlt, hle, rfl, rfl, byteLength_take_add_piece text (Nat.le_of_lt hlt)⟩

theorem matchToken_covers {grammar : Grammar} {text : List Char} {found : Pattern.Match}
    (hlt : found.start < found.stop) (hle : found.stop ≤ text.length) :
    (grammar.matchToken text found).Covers text found.start found.stop := by
  have hother := otherToken_covers hlt hle
  unfold matchToken
  cases grammar.taken? found with
  | none => exact hother
  | some taken => exact ⟨hlt, hle, hother.text_eq, hother.start_eq, hother.stop_eq⟩

theorem behind_eq {text : List Char} {position : Nat} (h : position ≤ text.length) :
    Subject.behind ⟨none, text⟩ position = ⟨(text.take position).getLast?, text.drop position⟩ := by
  rw [List.getLast?_take]
  cases position with
  | zero => rfl
  | succ before => simp [Subject.behind, Subject.around, List.getElem?_eq_getElem h]

theorem searchAt?_matches {grammar : Grammar} {text : List Char} {position : Nat}
    {found : Pattern.Match} (h : grammar.searchAt? text position = some found) :
    found.Sound ⟨none, text⟩ grammar.pattern := by
  have hposition := (searchAt?_sound h).1
  rw [searchAt?, if_pos hposition] at h
  obtain ⟨inner, hsearch, rfl⟩ := Option.map_eq_some_iff.mp h
  have hsound := Pattern.search?_sound hsearch
  rw [← behind_eq hposition] at hsound
  exact hsound.of_behind hposition

theorem seek?_matches {grammar : Grammar} {text : List Char} {position : Nat}
    {found : Pattern.Match} (h : grammar.seek? text position = some found) :
    found.Sound ⟨none, text⟩ grammar.pattern := by
  obtain ⟨-, other, -, hfound⟩ := seek?_sound h
  exact searchAt?_matches hfound

namespace Cursor

/-- The tokens that the cursor has given reach up to the position `given`. -/
structure Valid (text : List Char) (cursor : Cursor) (given : Nat) : Prop where
  pending : match cursor.pending with
    | none => given = cursor.position
    | some token => token.Covers text given cursor.position
  position_le : cursor.position ≤ text.length
  searchFrom : cursor.finished = false → cursor.position ≤ cursor.searchFrom
  finished : cursor.finished = true → cursor.position = text.length

theorem valid_start (text : List Char) : Valid text {} 0 :=
  ⟨rfl, Nat.zero_le _, fun _ => Nat.le_refl 0, fun h => nomatch h⟩

theorem Gives.valid {grammar : Grammar} {text : List Char} {cursor after : Cursor}
    {token : Token} {given : Nat} (h : Gives grammar text cursor token after)
    (hvalid : cursor.Valid text given) :
    ∃ last, token.Covers text given last ∧ after.Valid text last := by
  obtain ⟨hpending, hposition, hsearchFrom, hfinished⟩ := hvalid
  cases h with
  | held => exact ⟨_, hpending, rfl, hposition, hsearchFrom, hfinished⟩
  | rest hseek hlt =>
      cases hpending
      exact ⟨text.length, otherToken_covers hlt (Nat.le_refl _), rfl, Nat.le_refl _,
        (fun h => nomatch h), fun _ => rfl⟩
  | @gap position searchFrom found hseek hlt =>
      cases hpending
      obtain ⟨-, hstart, hstop⟩ := lt_stop_of_seek? hseek
      have hle : found.stop ≤ text.length := (seek?_matches hseek).stop_le
      exact ⟨found.start, otherToken_covers hlt (by omega), matchToken_covers hstop hle, hle,
        fun _ => Nat.le_refl _, fun h => nomatch h⟩
  | @hit position searchFrom found hseek hge =>
      cases hpending
      obtain ⟨-, hstart, hstop⟩ := lt_stop_of_seek? hseek
      have hle : found.stop ≤ text.length := (seek?_matches hseek).stop_le
      -- Searches never start before the cursor, so without a gap the match starts there.
      have hsame : position = found.start :=
        Nat.le_antisymm (Nat.le_trans (hsearchFrom rfl) hstart) hge
      rw [hsame]
      exact ⟨found.stop, matchToken_covers hstop hle, rfl, hle, fun _ => Nat.le_refl _,
        fun h => nomatch h⟩

theorem next_none {grammar : Grammar} {text : List Char} {cursor after : Cursor} {given : Nat}
    (h : cursor.next grammar text = (none, after)) (hvalid : cursor.Valid text given) :
    given = text.length ∧ after.next grammar text = (none, after) := by
  obtain ⟨position, searchFrom, pending, finished⟩ := cursor
  cases pending with
  | some token => cases h
  | none =>
      obtain ⟨hpending, hposition, -, hfinished⟩ := hvalid
      cases hpending
      cases finished with
      | true =>
          cases h
          exact ⟨hfinished rfl, rfl⟩
      | false =>
          simp only [next, Bool.false_eq_true, if_false] at h
          split at h
          · split at h
            · cases h
            · next hge =>
                cases h
                exact ⟨Nat.le_antisymm hposition (Nat.le_of_not_lt hge), rfl⟩
          · split at h <;> cases h

/-- The tokens lead from a position to the end of the text, each from where the one before it
stops. -/
def Reach (text : List Char) : Nat → List Token → Prop
  | first, [] => first = text.length
  | first, token :: rest => ∃ last, token.Covers text first last ∧ Reach text last rest

theorem tokens_reach {grammar : Grammar} {text : List Char} {cursor : Cursor} {given : Nat}
    (hvalid : cursor.Valid text given) : Reach text given (cursor.tokens grammar text) := by
  fun_induction Cursor.tokens grammar text cursor generalizing given with
  | case1 cursor after hnext => exact (next_none hnext hvalid).1
  | case2 cursor token after hnext ih =>
      obtain ⟨last, hcovers, hafter⟩ := (gives_of_next hnext).valid hvalid
      exact ⟨last, hcovers, ih hafter⟩

def advanced (grammar : Grammar) (text : List Char) (calls : Nat) (cursor : Cursor) : Cursor :=
  (fun cursor => (cursor.next grammar text).2)^[calls] cursor

/-- What `next` gives after that many other calls. -/
def call (grammar : Grammar) (text : List Char) (calls : Nat) (cursor : Cursor) :
    Option Token :=
  ((cursor.advanced grammar text calls).next grammar text).1

theorem call_succ {grammar : Grammar} {text : List Char} {cursor after : Cursor}
    {token : Option Token} (h : cursor.next grammar text = (token, after)) (calls : Nat) :
    cursor.call grammar text (calls + 1) = after.call grammar text calls := by
  rw [call, advanced, Function.iterate_succ_apply, h]
  rfl

theorem call_eq_tokens {grammar : Grammar} {text : List Char} {cursor : Cursor} {given : Nat}
    (hvalid : cursor.Valid text given) (calls : Nat) :
    cursor.call grammar text calls = (cursor.tokens grammar text)[calls]? := by
  fun_induction Cursor.tokens grammar text cursor generalizing given calls with
  | case1 cursor after hnext =>
      have hafter := (next_none hnext hvalid).2
      cases calls with
      | zero => simp [call, advanced, hnext]
      | succ calls =>
          rw [call_succ hnext, call, advanced, Function.iterate_fixed (by rw [hafter]), hafter,
            List.getElem?_nil]
  | case2 cursor token after hnext ih =>
      obtain ⟨last, -, hafter⟩ := (gives_of_next hnext).valid hvalid
      cases calls with
      | zero => simp [call, advanced, hnext]
      | succ calls => rw [call_succ hnext, ih hafter, List.getElem?_cons_succ]

end Cursor

def Contiguous : Nat → List Token → Nat → Prop
  | start, [], stop => start = stop
  | start, token :: rest, stop => token.start = start ∧ Contiguous token.stop rest stop

/-- The tokens are pieces of a text that make it up, with offsets in bytes. -/
structure Partition (text : String) (tokens : List Token) : Prop where
  nonempty : ∀ token ∈ tokens, token.start < token.stop
  slice : ∀ token ∈ tokens, ∃ before after : String,
    text = before ++ token.text ++ after ∧ token.start = before.utf8ByteSize ∧
      token.stop = (before ++ token.text).utf8ByteSize
  contiguous : Contiguous 0 tokens text.utf8ByteSize
  empty : text = "" → tokens = []
  join : String.join (tokens.map Token.text) = text

namespace Cursor

variable {text : List Char} {first : Nat} {tokens : List Token}

theorem Reach.covers (h : Reach text first tokens) :
    ∀ token ∈ tokens, ∃ first last, token.Covers text first last := by
  induction tokens generalizing first with
  | nil => exact fun _ hmem => nomatch hmem
  | cons token rest ih =>
      obtain ⟨last, hcovers, hrest⟩ := h
      intro other hmem
      cases hmem with
      | head => exact ⟨first, last, hcovers⟩
      | tail _ hmem => exact ih hrest other hmem

theorem Reach.contiguous (h : Reach text first tokens) :
    Contiguous (byteLength (text.take first)) tokens (byteLength text) := by
  induction tokens generalizing first with
  | nil =>
      cases h
      rw [List.take_length]
      rfl
  | cons token rest ih =>
      obtain ⟨last, hcovers, hrest⟩ := h
      refine ⟨hcovers.start_eq, ?_⟩
      rw [hcovers.stop_eq]
      exact ih hrest

theorem Reach.join (h : Reach text first tokens) :
    String.join (tokens.map Token.text) = String.ofList (text.drop first) := by
  induction tokens generalizing first with
  | nil =>
      cases h
      rw [List.drop_length]
      rfl
  | cons token rest ih =>
      obtain ⟨last, hcovers, hrest⟩ := h
      rw [List.map_cons, String.join_cons, ih hrest, hcovers.text_eq, ← String.ofList_append,
        piece_append_drop text (Nat.le_of_lt hcovers.lt)]

theorem Reach.empty (h : Reach [] first tokens) : tokens = [] := by
  cases tokens with
  | nil => rfl
  | cons token rest =>
      obtain ⟨last, hcovers, -⟩ := h
      have hlt := Nat.lt_of_lt_of_le hcovers.lt hcovers.le
      exact absurd hlt (Nat.not_lt_zero first)

end Cursor

theorem Token.Covers.byteLength_take {text : List Char} {token : Token} {first last : Nat}
    (h : token.Covers text first last) :
    byteLength (text.take last) = byteLength (text.take first) + token.text.utf8ByteSize := by
  rw [h.text_eq, utf8ByteSize_ofList, byteLength_take_add_piece text (Nat.le_of_lt h.lt)]

theorem Token.Covers.start_lt_stop {text : List Char} {token : Token} {first last : Nat}
    (h : token.Covers text first last) : token.start < token.stop := by
  have hpos := byteLength_pos (piece_ne_nil h.lt h.le)
  rw [h.start_eq, h.stop_eq, h.byteLength_take, h.text_eq, utf8ByteSize_ofList]
  exact Nat.lt_add_of_pos_right hpos

theorem Token.Covers.slice {text : String} {token : Token} {first last : Nat}
    (h : token.Covers text.toList first last) :
    ∃ before after : String, text = before ++ token.text ++ after ∧
      token.start = before.utf8ByteSize ∧
      token.stop = (before ++ token.text).utf8ByteSize := by
  refine ⟨String.ofList (text.toList.take first), String.ofList (text.toList.drop last), ?_, ?_, ?_⟩
  · rw [h.text_eq, ← String.ofList_append, take_append_piece _ (Nat.le_of_lt h.lt),
      ← String.ofList_append, List.take_append_drop, String.ofList_toList]
  · rw [h.start_eq, utf8ByteSize_ofList]
  · rw [h.stop_eq, String.utf8ByteSize_append, utf8ByteSize_ofList, h.byteLength_take]

theorem scan_reach (grammar : Grammar) (text : String) :
    Cursor.Reach text.toList 0 (grammar.scan text) :=
  Cursor.tokens_reach (Cursor.valid_start text.toList)

/-- The tokens of a text are a partition of it. A cursor that starts at the text gives them one
after the other, and once it gives none it gives none ever after. -/
theorem scan_partition (grammar : Grammar) (text : String) :
    Partition text (grammar.scan text) ∧
      (∀ calls, Cursor.call grammar text.toList calls {} = (grammar.scan text)[calls]?) ∧
      ∀ calls later, Cursor.call grammar text.toList calls {} = none → calls ≤ later →
        Cursor.call grammar text.toList later {} = none := by
  have hreach := scan_reach grammar text
  have hcall : ∀ calls,
      Cursor.call grammar text.toList calls {} = (grammar.scan text)[calls]? :=
    Cursor.call_eq_tokens (Cursor.valid_start text.toList)
  refine ⟨⟨?_, ?_, ?_, ?_, ?_⟩, hcall, ?_⟩
  · intro token hmem
    obtain ⟨first, last, hcovers⟩ := hreach.covers token hmem
    exact hcovers.start_lt_stop
  · intro token hmem
    obtain ⟨first, last, hcovers⟩ := hreach.covers token hmem
    exact hcovers.slice
  · have hsize := utf8ByteSize_ofList text.toList
    rw [String.ofList_toList] at hsize
    rw [hsize]
    exact hreach.contiguous
  · rintro rfl
    exact hreach.empty
  · rw [hreach.join, List.drop_zero, String.ofList_toList]
  · intro calls later hnone hle
    rw [hcall, List.getElem?_eq_none_iff] at hnone ⊢
    exact Nat.le_trans hnone hle

end Grammar

end DocMarkup
