import DocMarkup.Pattern.Expression
import DocMarkup.Pattern.UnicodeClasses
import DocMarkup.Text.Escape
import DocMarkup.Text.Split

/-!
Lexemes of written patterns.

A pattern is first cut into lexemes: atoms, repetitions, bars, and the openings and closings
of groups. In verbose mode, which flags set for a group, blanks and comments between characters
do not count.
-/

namespace DocMarkup

inductive Lexeme
  | atom (item : Expression)
  | flags (changes : FlagChanges)
  | repetition (low : Nat) (high : Option Nat) (greedy : Bool)
  | bar
  | openGroup (kind : GroupKind)
  | closeGroup
  deriving DecidableEq, Repr

namespace Lexeme

/-- Takes something from the front of a text, and leaves the rest of it. -/
abbrev Read := StateT (List Char) Option

section

variable {α β : Type} {input rest : List Char}

theorem bind_eq_some_iff {read : Read α} {after : α → Read β} {value : β} :
    (read >>= after) input = some (value, rest) ↔
      ∃ first left, read input = some (first, left) ∧ after first left = some (value, rest) := by
  show (Option.bind (read input) fun result => after result.1 result.2) = _ ↔ _
  simp [Option.bind_eq_some_iff]

theorem pure_eq_some_iff {value other : α} :
    (pure other : Read α) input = some (value, rest) ↔ other = value ∧ input = rest := by
  show some (other, input) = _ ↔ _
  simp

theorem lift_eq_some_iff {result : Option α} {value : α} :
    (liftM result : Read α) input = some (value, rest) ↔ result = some value ∧ input = rest := by
  show (Option.bind result fun value => some (value, input)) = _ ↔ _
  cases result <;> simp

theorem map_eq_some_iff {read : Read α} {change : α → β} {value : β} :
    (change <$> read) input = some (value, rest) ↔
      ∃ first, read input = some (first, rest) ∧ change first = value := by
  show (Option.bind (read input) fun result => some (change result.1, result.2)) = _ ↔ _
  simp [Option.bind_eq_some_iff]

theorem map_eq_none_iff {read : Read α} {change : α → β} :
    (change <$> read) input = none ↔ read input = none := by
  show (Option.bind (read input) fun result => some (change result.1, result.2)) = _ ↔ _
  cases read input <;> simp

theorem orElse_eq_some_iff {first second : Read α} {value : α} :
    (first <|> second) input = some (value, rest) ↔
      first input = some (value, rest) ∨
        first input = none ∧ second input = some (value, rest) := by
  show (first input <|> second input) = _ ↔ _
  cases first input <;> simp

/-- What is left is the end of what was given. -/
def LeavesSuffix (read : Read α) : Prop :=
  ∀ ⦃input value rest⦄, read input = some (value, rest) → rest <:+ input

namespace LeavesSuffix

theorem pure (value : α) : LeavesSuffix (pure value) := by
  intro input other rest h
  obtain ⟨-, rfl⟩ := pure_eq_some_iff.mp h
  exact List.suffix_refl _

theorem lift (result : Option α) : LeavesSuffix (liftM result) := by
  intro input value rest h
  obtain ⟨-, rfl⟩ := lift_eq_some_iff.mp h
  exact List.suffix_refl _

theorem bind {read : Read α} {after : α → Read β} (hread : LeavesSuffix read)
    (hafter : ∀ value, LeavesSuffix (after value)) : LeavesSuffix (read >>= after) := by
  intro input value rest h
  obtain ⟨first, left, hfirst, hrest⟩ := bind_eq_some_iff.mp h
  exact (hafter first hrest).trans (hread hfirst)

theorem map {read : Read α} (hread : LeavesSuffix read) (change : α → β) :
    LeavesSuffix (change <$> read) := by
  intro input value rest h
  obtain ⟨first, hfirst, -⟩ := map_eq_some_iff.mp h
  exact hread hfirst

theorem orElse {first second : Read α} (hfirst : LeavesSuffix first)
    (hsecond : LeavesSuffix second) : LeavesSuffix (first <|> second) := by
  intro input value rest h
  rcases orElse_eq_some_iff.mp h with h | ⟨-, h⟩
  · exact hfirst h
  · exact hsecond h

end LeavesSuffix

end

/-- A hash starts a comment, which the end of the line ends. -/
def nextFrom (verbose : Bool) : (inComment : Bool) → List Char → Option (Char × List Char)
  | _, [] => none
  | true, char :: rest => nextFrom verbose (char != '\n') rest
  | false, char :: rest =>
      if verbose && Text.isBlank char then nextFrom verbose false rest
      else if verbose && char == '#' then nextFrom verbose true rest
      else some (char, rest)

/-- The next character that counts. -/
def next (verbose : Bool) : Read Char :=
  nextFrom verbose false

/-- The next character that counts, which is left where it is. -/
def look (verbose : Bool) : Read Char := fun input =>
  (next verbose input).map fun (char, _) => (char, input)

theorem suffix_of_nextFrom {verbose inComment : Bool} {input rest : List Char} {char : Char}
    (h : nextFrom verbose inComment input = some (char, rest)) : char :: rest <:+ input := by
  fun_induction nextFrom verbose inComment input with
  | case1 => cases h
  | case2 first input ih => exact (ih h).trans (List.suffix_cons _ _)
  | case3 first input hblank ih => exact (ih h).trans (List.suffix_cons _ _)
  | case4 first input hblank hhash ih => exact (ih h).trans (List.suffix_cons _ _)
  | case5 first input hblank hhash =>
      cases h
      exact List.suffix_refl _

theorem suffix_of_next {verbose : Bool} {input rest : List Char} {char : Char}
    (h : next verbose input = some (char, rest)) : char :: rest <:+ input :=
  suffix_of_nextFrom h

theorem length_of_next {verbose : Bool} {input rest : List Char} {char : Char}
    (h : next verbose input = some (char, rest)) : rest.length < input.length :=
  (suffix_of_next h).length_le

def bracedFrom (verbose : Bool) (input : List Char) : Option (List Char × List Char) :=
  match _h : next verbose input with
  | none => none
  | some (char, rest) =>
      if char = '\x7d' then some ([], rest)
      else (bracedFrom verbose rest).map fun (chars, rest) => (char :: chars, rest)
termination_by input.length
decreasing_by exact length_of_next _h

/-- The characters up to a closing brace, which is taken with them. -/
def braced (verbose : Bool) : Read (List Char) :=
  bracedFrom verbose

/-- So many characters. -/
def counted (verbose : Bool) : (count : Nat) → Read (List Char)
  | 0 => return []
  | count + 1 => return (← next verbose) :: (← counted verbose count)

theorem leavesSuffix_next (verbose : Bool) : LeavesSuffix (next verbose) :=
  fun _ _ _ h => (List.suffix_cons _ _).trans (suffix_of_next h)

theorem leavesSuffix_look (verbose : Bool) : LeavesSuffix (look verbose) := by
  intro input char rest h
  obtain ⟨first, -, heq⟩ := Option.map_eq_some_iff.mp h
  cases heq
  exact List.suffix_refl _

theorem leavesSuffix_braced (verbose : Bool) : LeavesSuffix (braced verbose) := by
  intro input chars rest h
  rw [braced] at h
  fun_induction bracedFrom verbose input generalizing chars with
  | case1 => cases h
  | case2 input after hnext =>
      cases h
      exact leavesSuffix_next verbose hnext
  | case3 input char after hnext hchar ih =>
      obtain ⟨⟨others, left⟩, hothers, heq⟩ := Option.map_eq_some_iff.mp h
      cases heq
      exact (ih hothers).trans (leavesSuffix_next verbose hnext)

theorem leavesSuffix_counted (verbose : Bool) (count : Nat) :
    LeavesSuffix (counted verbose count) := by
  induction count with
  | zero => exact .pure []
  | succ count ih => exact (leavesSuffix_next verbose).bind fun _ => ih.bind fun _ => .pure _

def hexValue (digits : List Char) : Nat :=
  digits.foldl
    (fun value digit =>
      let code := digit.toLower.toNat
      value * 16 + if digit.isDigit then code - '0'.toNat else code - 'a'.toNat + 10)
    0

def codePoint? (digits : List Char) : Option Char :=
  let code := hexValue digits
  if !digits.isEmpty && digits.all Text.isHexDigit && decide code.isValidChar then
    some (Char.ofNat code)
  else none

/-- A code point in hexadecimal: so many digits, or any number of them between braces. -/
def readCodePoint (verbose : Bool) (width : Nat) : Read Expression := do
  if (← look verbose) = '\x7b' then
    let _ ← next verbose
    return .literal (← codePoint? (← braced verbose))
  else
    let char ← codePoint? (← counted verbose width)
    return if width = 2 ∧ !Text.isAscii char then .byte char else .literal char

theorem leavesSuffix_readCodePoint (verbose : Bool) (width : Nat) :
    LeavesSuffix (readCodePoint verbose width) := by
  refine (leavesSuffix_look verbose).bind fun first => ?_
  split
  · exact (leavesSuffix_next verbose).bind fun _ => (leavesSuffix_braced verbose).bind fun _ =>
      (LeavesSuffix.lift _).bind fun _ => .pure _
  · exact (leavesSuffix_counted verbose width).bind fun _ =>
      (LeavesSuffix.lift _).bind fun _ => .pure _

def splitAt? (mark : List Char) : List Char → Option (List Char × List Char)
  | [] => none
  | char :: rest =>
      match Text.afterChars? mark (char :: rest) with
      | some after => some ([], after)
      | none => (splitAt? mark rest).map fun (before, after) => (char :: before, after)

/-- What a name between braces asks for, and whether it means what is not in that class. -/
def queryOf (name : List Char) : Bool × ClassQuery :=
  match splitAt? ['!', '='] name with
  | some (property, value) => (true, .value property value)
  | none =>
      match splitAt? [':'] name <|> splitAt? ['='] name with
      | some (property, value) => (false, .value property value)
      | none => (false, .name name)

def edges : List (String × WordEdge) := [
  ("start", .start), ("end", .stop), ("start-half", .startHalf), ("end-half", .stopHalf)]

def isEdgeChar (char : Char) : Bool :=
  char.isAlpha || char == '-'

/-- An edge of words, after its letter. Braces that cannot hold a name are left. -/
def readEdge (verbose : Bool) : Read Expression := fun input =>
  match input with
  | '\x7b' :: body =>
      match next verbose body with
      | none => none
      | some (first, _) =>
          if isEdgeChar first then do
            let (name, rest) ← braced verbose body
            return (.word (← edges.lookup (String.ofList name)), rest)
          else some (.word .either, input)
  | _ => some (.word .either, input)

theorem leavesSuffix_readEdge (verbose : Bool) : LeavesSuffix (readEdge verbose) := by
  intro input item rest h
  unfold readEdge at h
  split at h
  · next body =>
      split at h
      · cases h
      · split at h
        · obtain ⟨⟨name, left⟩, hname, h⟩ := Option.bind_eq_some_iff.mp h
          obtain ⟨edge, -, heq⟩ := Option.bind_eq_some_iff.mp h
          cases heq
          exact (leavesSuffix_braced verbose hname).trans (List.suffix_cons _ _)
        · cases h
          exact List.suffix_refl _
  · cases h
    exact List.suffix_refl _

def ofLetter? : Char → Option Expression
  | 'a' => some (.literal '\x07')
  | 'f' => some (.literal '\x0c')
  | 'n' => some (.literal '\n')
  | 'r' => some (.literal '\r')
  | 't' => some (.literal '\t')
  | 'v' => some (.literal '\x0b')
  | 'd' => some (.set (.letter false .digit))
  | 'D' => some (.set (.letter true .digit))
  | 's' => some (.set (.letter false .blank))
  | 'S' => some (.set (.letter true .blank))
  | 'w' => some (.set (.letter false .word))
  | 'W' => some (.set (.letter true .word))
  | 'A' => some .textStart
  | 'z' => some .textEnd
  | 'B' => some (.word .neither)
  | '<' => some (.word .start)
  | '>' => some (.word .stop)
  | _ => none

/-- Characters that a backslash before them keeps as they are. -/
def isPunctuation (char : Char) : Bool :=
  Text.isAscii char && !char.isAlphanum && char != '<' && char != '>'

section

variable [UnicodeClasses]

def readClass (verbose negated : Bool) : Read Expression := do
  let first ← next verbose
  if first = '\x7b' then
    let (opposite, query) := queryOf (← braced verbose)
    return .set (.property (negated != opposite) (← UnicodeClasses.set? query))
  else if first = '\\' then failure
  else return .set (.property negated (← UnicodeClasses.set? (.letter first)))

def readEscaped (verbose : Bool) (letter : Char) : Read Expression :=
  match letter with
  | 'x' => readCodePoint verbose 2
  | 'u' => readCodePoint verbose 4
  | 'U' => readCodePoint verbose 8
  | 'p' => readClass verbose false
  | 'P' => readClass verbose true
  | 'b' => readEdge verbose
  | letter => if isPunctuation letter then return .literal letter else ofLetter? letter

def readEscape (verbose : Bool) : Read Expression := do
  readEscaped verbose (← next false)

theorem leavesSuffix_readClass (verbose negated : Bool) :
    LeavesSuffix (readClass verbose negated) := by
  refine (leavesSuffix_next verbose).bind fun first => ?_
  split
  · exact (leavesSuffix_braced verbose).bind fun _ => (LeavesSuffix.lift _).bind fun _ => .pure _
  · split
    · intro input item rest h
      cases h
    · exact (LeavesSuffix.lift _).bind fun _ => .pure _

theorem leavesSuffix_readEscaped (verbose : Bool) (letter : Char) :
    LeavesSuffix (readEscaped verbose letter) := by
  unfold readEscaped
  split
  · exact leavesSuffix_readCodePoint verbose 2
  · exact leavesSuffix_readCodePoint verbose 4
  · exact leavesSuffix_readCodePoint verbose 8
  · exact leavesSuffix_readClass verbose false
  · exact leavesSuffix_readClass verbose true
  · exact leavesSuffix_readEdge verbose
  · split
    · exact .pure _
    · exact .lift _

theorem leavesSuffix_readEscape (verbose : Bool) : LeavesSuffix (readEscape verbose) :=
  (leavesSuffix_next false).bind fun letter => leavesSuffix_readEscaped verbose letter

end

namespace ClassReader

/-- One bracket that is being read: the operation that its items so far are the second
operand of, and those items, latest first. -/
structure Frame where
  negated : Bool
  operand : Option (ClassOperator × ClassItem)
  items : List ClassItem

namespace Frame

def body (frame : Frame) : ClassItem :=
  let items := ClassItem.ofItems frame.items.reverse
  match frame.operand with
  | none => items
  | some (operator, first) => .operation operator first items

def add (frame : Frame) (item : ClassItem) : Frame :=
  { frame with items := item :: frame.items }

def operate (frame : Frame) (operator : ClassOperator) : Frame :=
  { frame with operand := some (operator, frame.body), items := [] }

def close (frame : Frame) : ClassItem :=
  .bracketed frame.negated frame.body

end Frame

def namedSets : List (String × List (Char × Char)) := [
  ("alnum", [('0', '9'), ('A', 'Z'), ('a', 'z')]),
  ("alpha", [('A', 'Z'), ('a', 'z')]),
  ("ascii", [('\x00', '\x7f')]),
  ("blank", [('\t', '\t'), (' ', ' ')]),
  ("cntrl", [('\x00', '\x1f'), ('\x7f', '\x7f')]),
  ("digit", [('0', '9')]),
  ("graph", [('!', '~')]),
  ("lower", [('a', 'z')]),
  ("print", [(' ', '~')]),
  ("punct", [('!', '/'), (':', '@'), ('[', '`'), ('\x7b', '~')]),
  ("space", [('\t', '\r'), (' ', ' ')]),
  ("upper", [('A', 'Z')]),
  ("word", [('0', '9'), ('A', 'Z'), ('_', '_'), ('a', 'z')]),
  ("xdigit", [('0', '9'), ('A', 'F'), ('a', 'f')])]

def namedItem? (negated : Bool) (name : List Char) : Option ClassItem :=
  (namedSets.lookup (String.ofList name)).map (.named negated <| .ofRanges ·)

/-- The name in a named set, and whether that means what is not in the set. -/
def splitName : List Char → Bool × List Char
  | '^' :: name => (true, name)
  | name => (false, name)

/-- A named set such as `[:alpha:]` or `[:^alpha:]`, after its first bracket. -/
def readNamed : Read ClassItem := fun input =>
  match input with
  | ':' :: body =>
      match body.dropWhile (· != ':') with
      | ':' :: ']' :: rest =>
          let (negated, name) := splitName (body.takeWhile (· != ':'))
          (namedItem? negated name).map (·, rest)
      | _ => none
  | _ => none

def memberItem? : Expression → Option ClassItem
  | .literal char => some (.single char)
  | .byte char => some (.single char)
  | .set item => some item
  | _ => none

def char? : Expression → Option Char
  | .literal char => some char
  | .byte char => some char
  | _ => none

def rangeItem? (first last : Expression) : Option ClassItem := do
  let first ← char? first
  let last ← char? last
  if first ≤ last then return .range first last else none

/-- What is seen behind a hyphen. A hash is passed over, what the comment says is not. -/
def peek (verbose : Bool) (input : List Char) : Option Char :=
  if verbose then
    match input.dropWhile Text.isBlank with
    | '#' :: rest => (rest.dropWhile Text.isBlank).head?
    | rest => rest.head?
  else input.head?

/-- The character behind a hyphen that makes a range. It makes none before a closing bracket or
before another hyphen. -/
def rangeEnd? (verbose : Bool) : Read (Option Char) := fun input =>
  match next verbose input with
  | none => none
  | some ('-', after) =>
      if peek verbose after = some ']' ∨ peek verbose after = some '-' then some (none, input)
      else (next verbose after).map fun (char, rest) => (some char, rest)
  | some _ => some (none, input)

/-- How many hyphens come first. -/
def hyphensFrom (verbose : Bool) (input : List Char) : Option (Nat × List Char) :=
  match _h : next verbose input with
  | none => none
  | some (char, rest) =>
      if char = '-' then (hyphensFrom verbose rest).map fun (count, rest) => (count + 1, rest)
      else some (0, input)
termination_by input.length
decreasing_by exact length_of_next _h

def hyphens (verbose : Bool) : Read Nat :=
  hyphensFrom verbose

/-- The start of a bracket: hyphens that stand for themselves, or a closing bracket that does so
in first place. -/
def readFirst (verbose negated : Bool) : Read Frame := do
  let count ← hyphens verbose
  if count = 0 ∧ (← look verbose) = ']' then
    let _ ← next verbose
    return ⟨negated, none, [.single ']']⟩
  else return ⟨negated, none, List.replicate count (.single '-')⟩

def readOpening (verbose : Bool) : Read Frame := do
  if (← look verbose) = '^' then
    let _ ← next verbose
    readFirst verbose true
  else readFirst verbose false

def operator? : Char → Option ClassOperator
  | '&' => some .intersection
  | '-' => some .difference
  | '~' => some .symmetricDifference
  | _ => none

/-- An operator is a character that is written twice. -/
def readOperator (first : Char) : Read ClassOperator := fun input =>
  match input with
  | second :: rest => if second = first then (operator? first).map (·, rest) else none
  | [] => none

inductive Part
  | operator (operator : ClassOperator)
  | item (item : ClassItem)
  | opening (inner : Frame)
  | closing

theorem leavesSuffix_readNamed : LeavesSuffix readNamed := by
  intro input item rest h
  unfold readNamed at h
  split at h
  · next body =>
      split at h
      · next left hdrop =>
          obtain ⟨named, -, heq⟩ := Option.map_eq_some_iff.mp h
          cases heq
          have hsuffix : body.dropWhile (· != ':') <:+ body := List.dropWhile_suffix _
          rw [hdrop] at hsuffix
          exact ((List.suffix_cons ']' rest).trans (List.suffix_cons ':' _)).trans
            (hsuffix.trans (List.suffix_cons ':' body))
      · cases h
  · cases h

theorem leavesSuffix_rangeEnd? (verbose : Bool) : LeavesSuffix (rangeEnd? verbose) := by
  intro input found rest h
  unfold rangeEnd? at h
  split at h
  · cases h
  · next after hnext =>
      split at h
      · cases h
        exact List.suffix_refl _
      · obtain ⟨⟨char, left⟩, hchar, heq⟩ := Option.map_eq_some_iff.mp h
        cases heq
        exact (leavesSuffix_next verbose hchar).trans (leavesSuffix_next verbose hnext)
  · cases h
    exact List.suffix_refl _

theorem leavesSuffix_hyphens (verbose : Bool) : LeavesSuffix (hyphens verbose) := by
  intro input count rest h
  rw [hyphens] at h
  fun_induction hyphensFrom verbose input generalizing count with
  | case1 => cases h
  | case2 input after hnext ih =>
      obtain ⟨⟨more, left⟩, hmore, heq⟩ := Option.map_eq_some_iff.mp h
      cases heq
      exact (ih hmore).trans (leavesSuffix_next verbose hnext)
  | case3 =>
      cases h
      exact List.suffix_refl _

theorem leavesSuffix_readFirst (verbose negated : Bool) :
    LeavesSuffix (readFirst verbose negated) := by
  refine (leavesSuffix_hyphens verbose).bind fun count => (leavesSuffix_look verbose).bind
    fun first => ?_
  split
  · exact (leavesSuffix_next verbose).bind fun _ => .pure _
  · exact .pure _

theorem leavesSuffix_readOpening (verbose : Bool) : LeavesSuffix (readOpening verbose) := by
  refine (leavesSuffix_look verbose).bind fun first => ?_
  split
  · exact (leavesSuffix_next verbose).bind fun _ => leavesSuffix_readFirst verbose true
  · exact leavesSuffix_readFirst verbose false

theorem leavesSuffix_readOperator (first : Char) : LeavesSuffix (readOperator first) := by
  intro input operator rest h
  unfold readOperator at h
  split at h
  · split at h
    · obtain ⟨found, -, heq⟩ := Option.map_eq_some_iff.mp h
      cases heq
      exact List.suffix_cons _ _
    · cases h
  · cases h

section

variable [UnicodeClasses]

/-- A member that may be the end of a range: a character, or a set. -/
def readMember (verbose : Bool) (first : Char) : Read Expression :=
  if first = '\\' then readEscape verbose else return .literal first

def readItem (verbose : Bool) (first : Char) : Read ClassItem := do
  let start ← readMember verbose first
  match ← rangeEnd? verbose with
  | some second => rangeItem? start (← readMember verbose second)
  | none => memberItem? start

def readBehind (verbose : Bool) (first : Char) : Read Part :=
  Part.operator <$> readOperator first <|>
    if first = ']' then return .closing
    else if first = '[' then Part.item <$> readNamed <|> Part.opening <$> readOpening verbose
    else Part.item <$> readItem verbose first

theorem leavesSuffix_readMember (verbose : Bool) (first : Char) :
    LeavesSuffix (readMember verbose first) := by
  unfold readMember
  split
  · exact leavesSuffix_readEscape verbose
  · exact .pure _

theorem leavesSuffix_readItem (verbose : Bool) (first : Char) :
    LeavesSuffix (readItem verbose first) := by
  refine (leavesSuffix_readMember verbose first).bind fun start =>
    (leavesSuffix_rangeEnd? verbose).bind fun found => ?_
  split
  · exact (leavesSuffix_readMember verbose _).bind fun _ => .lift _
  · exact .lift _

theorem leavesSuffix_readBehind (verbose : Bool) (first : Char) :
    LeavesSuffix (readBehind verbose first) := by
  refine ((leavesSuffix_readOperator first).map _).orElse ?_
  split
  · exact .pure _
  · split
    · exact (leavesSuffix_readNamed.map _).orElse ((leavesSuffix_readOpening verbose).map _)
    · exact (leavesSuffix_readItem verbose first).map _

def readPart (verbose : Bool) : Read Part := do
  readBehind verbose (← next verbose)

theorem leavesSuffix_readPart (verbose : Bool) : LeavesSuffix (readPart verbose) :=
  (leavesSuffix_next verbose).bind fun first => leavesSuffix_readBehind verbose first

theorem length_of_readPart {verbose : Bool} {input rest : List Char} {part : Part}
    (h : readPart verbose input = some (part, rest)) : rest.length < input.length := by
  obtain ⟨first, left, hfirst, hrest⟩ := bind_eq_some_iff.mp h
  exact Nat.lt_of_le_of_lt (leavesSuffix_readBehind verbose first hrest).length_le
    (length_of_next hfirst)

/-- Reads up to the bracket that closes the outermost of the open ones. -/
def readFrames (verbose : Bool) (frame : Frame) (enclosing : List Frame) (input : List Char) :
    Option (ClassItem × List Char) :=
  match _h : readPart verbose input with
  | none => none
  | some (.operator operator, rest) =>
      readFrames verbose (frame.operate operator) enclosing rest
  | some (.item item, rest) => readFrames verbose (frame.add item) enclosing rest
  | some (.opening inner, rest) => readFrames verbose inner (frame :: enclosing) rest
  | some (.closing, rest) =>
      match enclosing with
      | [] => some (frame.close, rest)
      | outer :: enclosing => readFrames verbose (outer.add frame.close) enclosing rest
termination_by input.length
decreasing_by all_goals exact length_of_readPart _h

theorem suffix_of_readFrames {verbose : Bool} {frame : Frame} {enclosing : List Frame}
    {input rest : List Char} {item : ClassItem}
    (h : readFrames verbose frame enclosing input = some (item, rest)) : rest <:+ input := by
  fun_induction readFrames verbose frame enclosing input with
  | case1 => cases h
  | case2 _ _ _ _ _ hread ih | case3 _ _ _ _ _ hread ih | case4 _ _ _ _ _ hread ih =>
      exact (ih h).trans (leavesSuffix_readPart verbose hread)
  | case5 _ _ _ hread =>
      cases h
      exact leavesSuffix_readPart verbose hread
  | case6 _ _ _ hread _ _ ih => exact (ih h).trans (leavesSuffix_readPart verbose hread)

/-- A bracketed class, after its first bracket. -/
def read (verbose : Bool) : Read ClassItem := do
  let frame ← readOpening verbose
  readFrames verbose frame []

theorem leavesSuffix_read (verbose : Bool) : LeavesSuffix (read verbose) :=
  (leavesSuffix_readOpening verbose).bind fun _ _ _ _ h => suffix_of_readFrames h

end

end ClassReader

namespace GroupReader

def isNameStart (char : Char) : Bool :=
  char == '_' || Text.isAlphabetic char

def isNameChar (char : Char) : Bool :=
  char == '_' || char == '.' || char == '[' || char == ']' || Text.isAlphanumeric char

def isName : List Char → Bool
  | [] => false
  | first :: rest => isNameStart first && rest.all isNameChar

/-- A group's name and the angle that closes it. -/
def readName : Read String := fun input =>
  match input.dropWhile (· != '>') with
  | _ :: rest =>
      let name := input.takeWhile (· != '>')
      if isName name then some (String.ofList name, rest) else none
  | [] => none

def flag? : Char → Option Flag
  | 'i' => some .ignoreCase
  | 'm' => some .multiLine
  | 's' => some .dotAll
  | 'U' => some .swapGreed
  | 'u' => some .unicode
  | 'R' => some .anyBreak
  | 'x' => some .verbose
  | _ => none

/-- Flags without repetition, after a hyphen those that are cleared. -/
def changes? : (value : Bool) → (seen : List Flag) → List Char → Option FlagChanges
  | _, _, [] => some []
  | true, seen, '-' :: rest => if rest.isEmpty then none else changes? false seen rest
  | value, seen, char :: rest => do
      let flag ← flag? char
      if flag ∈ seen then none
      else return (flag, value) :: (← changes? value (flag :: seen) rest)

def isFlagChar (char : Char) : Bool :=
  char != ':' && char != ')'

def readFlags : Read Lexeme := fun input =>
  let written := input.takeWhile isFlagChar
  match input.dropWhile isFlagChar with
  | ':' :: rest =>
      (changes? true [] written).map fun changes => (.openGroup (.flagged changes), rest)
  | _ :: rest =>
      if written.isEmpty then none
      else (changes? true [] written).map fun changes => (.flags changes, rest)
  | [] => none

def readMarked : Read Lexeme := fun input =>
  match input with
  | 'P' :: '<' :: rest => (readName rest).map fun (name, rest) => (.openGroup (.named name), rest)
  | '<' :: rest => (readName rest).map fun (name, rest) => (.openGroup (.named name), rest)
  | input => readFlags input

def read (verbose : Bool) : Read Lexeme := fun input =>
  match next verbose input with
  | some ('?', rest) => readMarked rest
  | _ => some (.openGroup .unnamed, input)

theorem leavesSuffix_readName : LeavesSuffix readName := by
  intro input name rest h
  unfold readName at h
  split at h
  · next hdrop =>
      simp only at h
      split at h
      · cases h
        exact (List.suffix_cons _ _).trans (hdrop ▸ List.dropWhile_suffix (· != '>'))
      · cases h
  · cases h

theorem leavesSuffix_readFlags : LeavesSuffix readFlags := by
  intro input lexeme rest h
  have hsuffix {first : Char} {left : List Char}
      (hdrop : input.dropWhile isFlagChar = first :: left) : left <:+ input :=
    (List.suffix_cons _ _).trans (hdrop ▸ List.dropWhile_suffix isFlagChar)
  unfold readFlags at h
  simp only at h
  split at h
  · next hdrop =>
      obtain ⟨changes, -, heq⟩ := Option.map_eq_some_iff.mp h
      cases heq
      exact hsuffix hdrop
  · next hdrop =>
      split at h
      · cases h
      · obtain ⟨changes, -, heq⟩ := Option.map_eq_some_iff.mp h
        cases heq
        exact hsuffix hdrop
  · cases h

theorem leavesSuffix_readMarked : LeavesSuffix readMarked := by
  intro input lexeme rest h
  unfold readMarked at h
  split at h
  · obtain ⟨⟨name, left⟩, hname, heq⟩ := Option.map_eq_some_iff.mp h
    cases heq
    exact (leavesSuffix_readName hname).trans
      ((List.suffix_cons _ _).trans (List.suffix_cons _ _))
  · obtain ⟨⟨name, left⟩, hname, heq⟩ := Option.map_eq_some_iff.mp h
    cases heq
    exact (leavesSuffix_readName hname).trans (List.suffix_cons _ _)
  · exact leavesSuffix_readFlags h

theorem leavesSuffix_read (verbose : Bool) : LeavesSuffix (read verbose) := by
  intro input lexeme rest h
  unfold read at h
  split at h
  · next hnext => exact (leavesSuffix_readMarked h).trans (leavesSuffix_next verbose hnext)
  · cases h
    exact List.suffix_refl _

end GroupReader

namespace CountReader

def maxCount : Nat := 4294967295

/-- A count between blanks. -/
def count? (chars : List Char) : Option Nat :=
  let digits := Text.trimChars chars
  let value := digits.foldl (fun value digit => value * 10 + (digit.toNat - '0'.toNat)) 0
  if !digits.isEmpty && digits.all Char.isDigit && decide (value ≤ maxCount) then some value
  else none

def bounds? (chars : List Char) : Option (Nat × Option Nat) := do
  let low ← count? (chars.takeWhile (· != ','))
  match chars.dropWhile (· != ',') with
  | [] => return (low, some low)
  | [_] => return (low, none)
  | _ :: high =>
      let high ← count? high
      if low ≤ high then return (low, some high) else none

def read (verbose : Bool) : Read (Nat × Option Nat) := do
  bounds? (← braced verbose)

end CountReader

/-- A repetition is lazy if a question mark follows it. -/
def readGreed (verbose : Bool) (low : Nat) (high : Option Nat) : Read Lexeme := fun input =>
  match next verbose input with
  | some ('?', rest) => some (.repetition low high false, rest)
  | _ => some (.repetition low high true, input)

theorem leavesSuffix_readGreed (verbose : Bool) (low : Nat) (high : Option Nat) :
    LeavesSuffix (readGreed verbose low high) := by
  intro input lexeme rest h
  unfold readGreed at h
  split at h
  · next hnext =>
      cases h
      exact leavesSuffix_next verbose hnext
  · cases h
    exact List.suffix_refl _

/-- Whether verbose mode is on in the current group and in those around it, innermost first. It
is off where nothing is said. -/
abbrev Modes := List Bool

namespace Modes

def verbose (modes : Modes) : Bool :=
  modes.headD false

def set (modes : Modes) (changes : FlagChanges) : Bool :=
  (changes.lookup .verbose).getD modes.verbose

def after (modes : Modes) : Lexeme → Modes
  | .flags changes => modes.set changes :: modes.tail
  | .openGroup (.flagged changes) => modes.set changes :: modes
  | .openGroup _ => modes.verbose :: modes
  | .closeGroup => modes.tail
  | _ => modes

end Modes

section

variable [UnicodeClasses]

def read (verbose : Bool) (first : Char) : Read Lexeme :=
  match first with
  | '(' => GroupReader.read verbose
  | ')' => return .closeGroup
  | '|' => return .bar
  | '?' => readGreed false 0 (some 1)
  | '*' => readGreed false 0 none
  | '+' => readGreed false 1 none
  | '\x7b' => do
      let (low, high) ← CountReader.read verbose
      readGreed verbose low high
  | '[' => return .atom (.set (← ClassReader.read verbose))
  | '\\' => return .atom (← readEscape verbose)
  | '.' => return .atom .dot
  | '^' => return .atom .lineStart
  | '$' => return .atom .lineEnd
  | char => return .atom (.literal char)

theorem leavesSuffix_read (verbose : Bool) (first : Char) : LeavesSuffix (read verbose first) := by
  unfold read
  split
  · exact GroupReader.leavesSuffix_read verbose
  · exact .pure _
  · exact .pure _
  · exact leavesSuffix_readGreed false _ _
  · exact leavesSuffix_readGreed false _ _
  · exact leavesSuffix_readGreed false _ _
  · exact ((leavesSuffix_braced verbose).bind fun _ => .lift _).bind fun _ =>
      leavesSuffix_readGreed verbose _ _
  · exact (ClassReader.leavesSuffix_read verbose).bind fun _ => .pure _
  · exact (leavesSuffix_readEscape verbose).bind fun _ => .pure _
  all_goals exact .pure _

theorem length_of_read {verbose : Bool} {first : Char} {lexeme : Lexeme}
    {input left rest : List Char} (hnext : next verbose input = some (first, left))
    (h : read verbose first left = some (lexeme, rest)) : rest.length < input.length :=
  Nat.lt_of_le_of_lt (leavesSuffix_read verbose first h).length_le (length_of_next hnext)

def readAll (modes : Modes) (input : List Char) : Option (List Lexeme) :=
  match _hnext : next modes.verbose input with
  | none => some []
  | some (first, left) =>
      match _hread : read modes.verbose first left with
      | none => none
      | some (lexeme, rest) => (readAll (modes.after lexeme) rest).map (lexeme :: ·)
termination_by input.length
decreasing_by exact length_of_read _hnext _hread

end

end Lexeme

end DocMarkup
