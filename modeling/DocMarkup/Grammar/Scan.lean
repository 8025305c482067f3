import DocMarkup.Grammar

/-!
Scanning: cutting a text into the tokens of a grammar.

A cursor goes through the text and gives token after token. What lies between matches becomes
`other` tokens, so the tokens together make up the text.
-/

namespace DocMarkup

namespace Grammar

structure Token where
  rule : Option Nat
  name : String
  text : String
  /-- Where the token starts and stops, in bytes. -/
  start : Nat
  stop : Nat
  properties : List (String × String)
  deriving DecidableEq, Repr

namespace Token

def otherName : String := "other"

def property? (token : Token) (key : String) : Option String :=
  token.properties.lookup key

end Token

def byteLength : List Char → Nat
  | [] => 0
  | char :: rest => char.utf8Size + byteLength rest

def piece (text : List Char) (first last : Nat) : List Char :=
  (text.take last).drop first

def otherToken (text : List Char) (first last : Nat) : Token where
  rule := none
  name := Token.otherName
  text := String.ofList (piece text first last)
  start := byteLength (text.take first)
  stop := byteLength (text.take first) + byteLength (piece text first last)
  properties := []

def captured (rule : Rule) (text : List Char) (found : Pattern.Match) :
    List (String × String) :=
  rule.properties.filterMap fun (key, group) =>
    (found.group? group text).map fun value => (key, String.ofList value)

/-- The first rule that took part in a match, with its place. -/
def taken? (grammar : Grammar) (found : Pattern.Match) : Option (Nat × Rule) :=
  let took (rule : Rule) : Bool := (found.span? rule.name).isSome
  match grammar.rules.findIdx? took, grammar.rules.find? took with
  | some index, some rule => some (index, rule)
  | _, _ => none

def matchToken (grammar : Grammar) (text : List Char) (found : Pattern.Match) : Token :=
  let other := otherToken text found.start found.stop
  match grammar.taken? found with
  | none => other
  | some (index, rule) =>
      { other with
        rule := some index
        name := rule.name
        properties := captured rule (piece text found.start found.stop) found }

/-- The first match from a position on. Past the end of the text there is none. -/
def searchAt? (grammar : Grammar) (text : List Char) (position : Nat) : Option Pattern.Match :=
  if position ≤ text.length then
    (grammar.pattern.search? (text.take position).getLast? (text.drop position)).map fun found =>
      { found with start := position + found.start }
  else none

theorem searchAt?_sound {grammar : Grammar} {text : List Char} {position : Nat}
    {found : Pattern.Match} (h : grammar.searchAt? text position = some found) :
    position ≤ text.length ∧ position ≤ found.start := by
  unfold searchAt? at h
  split at h
  · next hposition =>
      obtain ⟨inner, -, rfl⟩ := Option.map_eq_some_iff.mp h
      exact ⟨hposition, Nat.le_add_right position inner.start⟩
  · contradiction

/-- The first match from a position on that takes text. An empty one is passed over, with the
character at which it stands. -/
def seek? (grammar : Grammar) (text : List Char) (position : Nat) : Option Pattern.Match :=
  match _h : grammar.searchAt? text position with
  | none => none
  | some found =>
      if found.length = 0 then seek? grammar text (found.stop + 1) else some found
termination_by text.length + 1 - position
decreasing_by
  have hsound := searchAt?_sound _h
  simp only [Pattern.Match.stop]
  omega

theorem seek?_sound {grammar : Grammar} {text : List Char} {position : Nat}
    {found : Pattern.Match} (h : grammar.seek? text position = some found) :
    found.length ≠ 0 ∧
      ∃ other, position ≤ other ∧ grammar.searchAt? text other = some found := by
  fun_induction seek? grammar text position with
  | case1 position hsearch => contradiction
  | case2 position other hsearch hempty ih =>
      obtain ⟨hlength, start, hle, hfound⟩ := ih h
      have hsound := searchAt?_sound hsearch
      simp only [Pattern.Match.stop] at hle
      exact ⟨hlength, start, by omega, hfound⟩
  | case3 position other hsearch hempty =>
      cases h
      exact ⟨hempty, position, Nat.le_refl position, hsearch⟩

theorem lt_stop_of_seek? {grammar : Grammar} {text : List Char} {position : Nat}
    {found : Pattern.Match} (h : grammar.seek? text position = some found) :
    position ≤ text.length ∧ position ≤ found.start ∧ found.start < found.stop := by
  obtain ⟨hlength, other, hle, hfound⟩ := seek?_sound h
  have hsound := searchAt?_sound hfound
  simp only [Pattern.Match.stop]
  omega

structure Cursor where
  position : Nat := 0
  /-- Where the next search starts. -/
  searchFrom : Nat := 0
  /-- A match whose gap before it was the last token. -/
  pending : Option Token := none
  finished : Bool := false
  deriving DecidableEq, Repr

namespace Cursor

/-- The next token, if there is one, and the cursor behind it. -/
def next (grammar : Grammar) (text : List Char) (cursor : Cursor) : Option Token × Cursor :=
  match cursor.pending with
  | some token => (some token, { cursor with pending := none })
  | none =>
      if cursor.finished then (none, cursor)
      else
        match grammar.seek? text cursor.searchFrom with
        | none =>
            if cursor.position < text.length then
              (some (otherToken text cursor.position text.length),
                { cursor with position := text.length, finished := true })
            else (none, { cursor with finished := true })
        | some found =>
            let token := grammar.matchToken text found
            let after : Cursor :=
              { cursor with position := found.stop, searchFrom := found.stop }
            if cursor.position < found.start then
              (some (otherToken text cursor.position found.start),
                { after with pending := some token })
            else (some token, after)

def left (text : List Char) (cursor : Cursor) : Nat :=
  2 * (text.length + 1 - cursor.searchFrom) + cursor.pending.toList.length +
    (if cursor.finished then 0 else 1)

/-- The ways in which a cursor gives a token. -/
inductive Gives (grammar : Grammar) (text : List Char) : Cursor → Token → Cursor → Prop
  | held {position searchFrom : Nat} {token : Token} {finished : Bool} :
      Gives grammar text ⟨position, searchFrom, some token, finished⟩ token
        ⟨position, searchFrom, none, finished⟩
  | rest {position searchFrom : Nat} (hseek : grammar.seek? text searchFrom = none)
      (hposition : position < text.length) :
      Gives grammar text ⟨position, searchFrom, none, false⟩
        (otherToken text position text.length) ⟨text.length, searchFrom, none, true⟩
  | gap {position searchFrom : Nat} {found : Pattern.Match}
      (hseek : grammar.seek? text searchFrom = some found) (hposition : position < found.start) :
      Gives grammar text ⟨position, searchFrom, none, false⟩
        (otherToken text position found.start)
        ⟨found.stop, found.stop, some (grammar.matchToken text found), false⟩
  | hit {position searchFrom : Nat} {found : Pattern.Match}
      (hseek : grammar.seek? text searchFrom = some found) (hposition : found.start ≤ position) :
      Gives grammar text ⟨position, searchFrom, none, false⟩ (grammar.matchToken text found)
        ⟨found.stop, found.stop, none, false⟩

theorem gives_of_next {grammar : Grammar} {text : List Char} {cursor after : Cursor}
    {token : Token} (h : cursor.next grammar text = (some token, after)) :
    Gives grammar text cursor token after := by
  obtain ⟨position, searchFrom, pending, finished⟩ := cursor
  cases pending with
  | some held =>
      cases h
      exact .held
  | none =>
      cases finished with
      | true => cases h
      | false =>
          cases hseek : grammar.seek? text searchFrom with
          | none =>
              simp only [next, hseek, Bool.false_eq_true, if_false] at h
              split at h
              · next hposition =>
                  cases h
                  exact .rest hseek hposition
              · cases h
          | some found =>
              simp only [next, hseek, Bool.false_eq_true, if_false] at h
              split at h
              · next hposition =>
                  cases h
                  exact .gap hseek hposition
              · next hposition =>
                  cases h
                  exact .hit hseek (Nat.le_of_not_lt hposition)

theorem Gives.left_lt {grammar : Grammar} {text : List Char} {cursor after : Cursor}
    {token : Token} (h : Gives grammar text cursor token after) :
    after.left text < cursor.left text := by
  cases h with
  | held => simp [left]
  | rest => simp [left]
  | gap hseek =>
      have hsound := lt_stop_of_seek? hseek
      simp only [left, Option.toList_some, Option.toList_none, List.length_singleton,
        List.length_nil]
      omega
  | hit hseek =>
      have hsound := lt_stop_of_seek? hseek
      simp only [left]
      omega

def tokens (grammar : Grammar) (text : List Char) (cursor : Cursor) : List Token :=
  match _h : cursor.next grammar text with
  | (none, _) => []
  | (some token, after) => token :: after.tokens grammar text
termination_by cursor.left text
decreasing_by exact (gives_of_next _h).left_lt

end Cursor

def scan (grammar : Grammar) (text : String) : List Token :=
  Cursor.tokens grammar text.toList {}

end Grammar

end DocMarkup
