import DocMarkup.GtkDoc.Index
import DocMarkup.Proofs.Text.Bytes

/-!
Reading the index of a gtk-doc reference.

Every line counts by itself, and later lines override earlier ones. So an index that is put
together of two says what the second one says, and what the first one says otherwise. From the
lines that are written for an index the last address of the online copy is read, and the last
page of every anchor.
-/

namespace DocMarkup

namespace Text

theorem splitChars_of_not_mem {separator : Char} {chars : List Char} (h : separator ∉ chars) :
    splitChars separator chars = [chars] := by
  induction chars with
  | nil => rfl
  | cons char chars ih =>
      rw [List.mem_cons, not_or] at h
      rw [splitChars, if_neg (Ne.symm h.1), ih h.2]

theorem splitChars_append (separator : Char) (first second : List Char) :
    splitChars separator (first ++ separator :: second) =
      splitChars separator first ++ splitChars separator second := by
  induction first with
  | nil => simp [splitChars]
  | cons char first ih =>
      rw [List.cons_append, splitChars, splitChars, ih]
      split
      · rfl
      · cases h : splitChars separator first with
        | nil => exact absurd h (splitChars_ne_nil separator first)
        | cons part parts => rfl

end Text

namespace GtkDoc.Index

open Text (splitChars)

def withoutReturn (line : List Char) : List Char :=
  if line.getLast? = some '\r' then line.dropLast else line

theorem lines_of_split {text last : List Char} {ended : List (List Char)}
    (h : splitChars '\n' text = ended ++ [last]) :
    lines text = ended.map withoutReturn ++ if last.isEmpty then [] else [last] := by
  have hreverse : (splitChars '\n' text).reverse = last :: ended.reverse := by
    rw [h, List.reverse_append]
    rfl
  simp only [lines, hreverse, List.reverse_reverse]
  split
  · exact (List.append_nil _).symm
  · rfl

theorem exists_split (text : List Char) :
    ∃ ended last, splitChars '\n' text = ended ++ [last] :=
  ⟨_, _, (List.dropLast_append_getLast (Text.splitChars_ne_nil '\n' text)).symm⟩

theorem lines_append (first second : List Char) :
    lines (first ++ '\n' :: second) = lines (first ++ ['\n']) ++ lines second := by
  obtain ⟨ended, last, hsecond⟩ := exists_split second
  have hfirst : splitChars '\n' (first ++ ['\n']) = splitChars '\n' first ++ [[]] :=
    Text.splitChars_append '\n' first []
  have hboth : splitChars '\n' (first ++ '\n' :: second) =
      (splitChars '\n' first ++ ended) ++ [last] := by
    rw [Text.splitChars_append, hsecond, List.append_assoc]
  rw [lines_of_split hboth, lines_of_split hfirst, lines_of_split hsecond, List.map_append,
    List.append_assoc]
  simp

theorem lines_cons {line : List Char} (h : '\n' ∉ line) (rest : List Char) :
    lines (line ++ '\n' :: rest) = withoutReturn line :: lines rest := by
  have hline : splitChars '\n' (line ++ ['\n']) = [line] ++ [[]] := by
    rw [Text.splitChars_append, Text.splitChars_of_not_mem h]
    rfl
  rw [lines_append, lines_of_split hline]
  rfl

theorem lines_single {line : List Char} (h : '\n' ∉ line) :
    lines line = if line.isEmpty then [] else [line] := by
  have hline : splitChars '\n' line = [] ++ [line] := Text.splitChars_of_not_mem h
  exact lines_of_split hline

theorem lookup_cons (id other page : String) (anchors : List (String × String)) :
    ((id, page) :: anchors).lookup other =
      if other = id then some page else anchors.lookup other := by
  rw [List.lookup_cons]
  split
  · next h => rw [if_pos (eq_of_beq h)]
  · next h => rw [if_neg (ne_of_beq_false h)]

theorem lookup_insert (id other page : String) (anchors : List (String × String)) :
    (insert id page anchors).lookup other =
      if other = id then some page else anchors.lookup other := by
  induction anchors with
  | nil => exact lookup_cons id other page []
  | cons entry anchors ih =>
      obtain ⟨known, old⟩ := entry
      rw [insert]
      split
      · next hknown =>
          subst hknown
          rw [lookup_cons, lookup_cons]
          split <;> rfl
      · next hknown =>
          rw [lookup_cons, lookup_cons, ih]
          split
          · next hother =>
              subst hother
              rw [if_neg hknown]
          · rfl

theorem mem_keys_insert_iff {id other page : String} {anchors : List (String × String)} :
    other ∈ (insert id page anchors).map Prod.fst ↔
      other = id ∨ other ∈ anchors.map Prod.fst := by
  induction anchors with
  | nil => simp [insert]
  | cons entry anchors ih =>
      obtain ⟨known, old⟩ := entry
      rw [insert]
      split
      · next hknown => simp [hknown]
      · simp only [List.map_cons, List.mem_cons, ih]
        exact or_left_comm

theorem nodup_keys_insert {id page : String} {anchors : List (String × String)}
    (h : (anchors.map Prod.fst).Nodup) : ((insert id page anchors).map Prod.fst).Nodup := by
  induction anchors with
  | nil => simp [insert]
  | cons entry anchors ih =>
      obtain ⟨known, old⟩ := entry
      obtain ⟨hnew, hrest⟩ := List.nodup_cons.mp h
      rw [insert]
      split
      · next hknown =>
          subst hknown
          exact h
      · next hknown =>
          refine List.nodup_cons.mpr ⟨fun hmem => ?_, ih hrest⟩
          rcases mem_keys_insert_iff.mp hmem with heq | hmem
          · exact hknown heq
          · exact hnew hmem

/-- What a line of an index says. -/
inductive Fact
  | online (address : String)
  | anchor (id page : String)
  deriving DecidableEq, Repr

namespace Fact

def ofLine? (line : List Char) : Option Fact :=
  let fields := (splitChars '"' line).map String.ofList
  if startsWith "<ONLINE".toList line then fields[1]?.map online
  else if startsWith "<ANCHOR".toList line then
    match fields[1]?, fields[3]? with
    | some id, some page => some (anchor id page)
    | _, _ => none
  else none

def addTo (index : GtkDoc.Index) : Fact → GtkDoc.Index
  | online address => { index with online := some address }
  | anchor id page => { index with anchors := insert id page index.anchors }

def address? : Fact → Option String
  | online address => some address
  | anchor _ _ => none

def page? : Fact → Option (String × String)
  | online _ => none
  | anchor id page => some (id, page)

end Fact

theorem addLine_eq (index : GtkDoc.Index) (line : List Char) :
    index.addLine line = (Fact.ofLine? line).elim index (Fact.addTo index) := by
  unfold addLine Fact.ofLine?
  simp only
  by_cases honline : startsWith "<ONLINE".toList line = true
  · rw [if_pos honline, if_pos honline]
    cases ((splitChars '"' line).map String.ofList)[1]? <;> rfl
  by_cases hanchor : startsWith "<ANCHOR".toList line = true
  · rw [if_neg honline, if_neg honline, if_pos hanchor, if_pos hanchor]
    cases ((splitChars '"' line).map String.ofList)[1]? <;>
      cases ((splitChars '"' line).map String.ofList)[3]? <;> rfl
  · rw [if_neg honline, if_neg honline, if_neg hanchor, if_neg hanchor]
    rfl

theorem foldl_addLine (index : GtkDoc.Index) (lines : List (List Char)) :
    lines.foldl addLine index = (lines.filterMap Fact.ofLine?).foldl Fact.addTo index := by
  induction lines generalizing index with
  | nil => rfl
  | cons line lines ih =>
      rw [List.foldl_cons, ih, addLine_eq, List.filterMap_cons]
      cases Fact.ofLine? line <;> rfl

/-- The index says these facts: the last one of each kind, and for each anchor, counts. -/
structure Says (index : GtkDoc.Index) (facts : List Fact) : Prop where
  online : index.online = (facts.filterMap Fact.address?).getLast?
  page : ∀ id, index.page? id = (facts.filterMap Fact.page?).reverse.lookup id
  once : (index.anchors.map Prod.fst).Nodup

theorem says_nothing (directory : Path) : Says { directory } [] where
  online := rfl
  page _ := rfl
  once := List.nodup_nil

theorem Says.add {index : GtkDoc.Index} {facts : List Fact} (h : index.Says facts)
    (fact : Fact) : (fact.addTo index).Says (facts ++ [fact]) := by
  cases fact with
  | online address =>
      have hpages : (facts ++ [Fact.online address]).filterMap Fact.page? =
          facts.filterMap Fact.page? := by
        rw [List.filterMap_append]
        exact List.append_nil _
      refine ⟨?_, fun id => ?_, h.once⟩
      · rw [List.filterMap_append]
        exact List.getLast?_concat.symm
      · rw [hpages]
        exact h.page id
  | anchor id page =>
      have haddresses : (facts ++ [Fact.anchor id page]).filterMap Fact.address? =
          facts.filterMap Fact.address? := by
        rw [List.filterMap_append]
        exact List.append_nil _
      refine ⟨?_, fun other => ?_, nodup_keys_insert h.once⟩
      · rw [haddresses]
        exact h.online
      · rw [List.filterMap_append, List.reverse_append]
        refine (lookup_insert id other page _).trans ?_
        refine Eq.trans ?_ (lookup_cons id other page _).symm
        exact if_congr Iff.rfl rfl (h.page other)

theorem Says.foldl {index : GtkDoc.Index} {facts : List Fact} (h : index.Says facts)
    (more : List Fact) : (more.foldl Fact.addTo index).Says (facts ++ more) := by
  induction more generalizing index facts with
  | nil => rwa [List.append_nil]
  | cons fact more ih =>
      rw [List.append_cons]
      exact ih (h.add fact)

theorem directory_foldl (index : GtkDoc.Index) (facts : List Fact) :
    (facts.foldl Fact.addTo index).directory = index.directory := by
  induction facts generalizing index with
  | nil => rfl
  | cons fact facts ih =>
      rw [List.foldl_cons, ih]
      cases fact <;> rfl

def factsOf (text : List Char) : List Fact :=
  (lines text).filterMap Fact.ofLine?

theorem says_of_decode? (directory : Path) {bytes : Text.Utf8.Bytes} {text : String}
    (h : Text.Utf8.decode? bytes = some text) :
    ∃ index, parse? directory bytes = some index ∧ index.directory = directory ∧
      index.Says (factsOf text.toList) := by
  refine ⟨(factsOf text.toList).foldl Fact.addTo { directory }, ?_, directory_foldl _ _, ?_⟩
  · rw [parse?, h, Option.map_some, foldl_addLine, factsOf]
  · exact (says_nothing directory).foldl _

theorem parse?_eq_none_iff {directory : Path} {bytes : Text.Utf8.Bytes} :
    parse? directory bytes = none ↔ Text.Utf8.decode? bytes = none :=
  Option.map_eq_none_iff

def EndsLine (bytes : Text.Utf8.Bytes) : Prop :=
  bytes = [] ∨ bytes.getLast? = some 0x0A

/-- What is said if a second index overrides a first one. -/
structure Overridden (first second joined : GtkDoc.Index) : Prop where
  directory : joined.directory = first.directory
  online : joined.online = second.online.or first.online
  page : ∀ id, joined.page? id = (second.page? id).or (first.page? id)
  once : (joined.anchors.map Prod.fst).Nodup

theorem Says.append {index other joined : GtkDoc.Index} {facts more : List Fact}
    (h : index.Says facts) (hother : other.Says more) (hjoined : joined.Says (facts ++ more))
    (hdirectory : joined.directory = index.directory) : Overridden index other joined where
  directory := hdirectory
  online := by
    rw [hjoined.online, hother.online, h.online, List.filterMap_append, List.getLast?_append]
  page id := by
    rw [hjoined.page, hother.page, h.page, List.filterMap_append, List.reverse_append,
      List.lookup_append]
  once := hjoined.once

/-- What is cut where a line ends is text just if both parts are. -/
theorem decode?_parts_iff {first second : Text.Utf8.Bytes} {text : String}
    (h : EndsLine first) :
    Text.Utf8.decode? (first ++ second) = some text ↔
      ∃ before after, Text.Utf8.decode? first = some before ∧
        Text.Utf8.decode? second = some after ∧ text = before ++ after := by
  rcases h with rfl | h
  · simp [Text.Utf8.decode?_nil]
  · obtain ⟨start, rfl⟩ := List.getLast?_eq_some_iff.mp h
    have hbyte : (0x0A : UInt8).toNat < 0x80 := by decide
    simp only [List.append_assoc, List.singleton_append,
      Text.Utf8.decode?_append_eq_some_iff hbyte, Text.Utf8.decode?_nil]
    constructor
    · rintro ⟨start, after, hstart, hafter, rfl⟩
      exact ⟨_, after, ⟨start, "", hstart, rfl, rfl⟩, hafter, by simp⟩
    · rintro ⟨_, after, ⟨start, _, hstart, hnil, rfl⟩, hafter, rfl⟩
      cases hnil
      exact ⟨start, after, hstart, hafter, by simp⟩

theorem endsLine_text {bytes : Text.Utf8.Bytes} {text : String} (h : EndsLine bytes)
    (hdecode : Text.Utf8.decode? bytes = some text) :
    text.toList = [] ∨ ∃ start, text.toList = start ++ ['\n'] := by
  rcases h with rfl | h
  · rw [Text.Utf8.decode?_nil] at hdecode
    cases hdecode
    exact .inl rfl
  · obtain ⟨start, rfl⟩ := List.getLast?_eq_some_iff.mp h
    have hbyte : (0x0A : UInt8).toNat < 0x80 := by decide
    obtain ⟨before, after, -, hafter, rfl⟩ :=
      (Text.Utf8.decode?_append_eq_some_iff hbyte).mp hdecode
    rw [Text.Utf8.decode?_nil] at hafter
    cases hafter
    refine .inr ⟨before.toList, ?_⟩
    simp

theorem factsOf_append {before : List Char}
    (h : before = [] ∨ ∃ start, before = start ++ ['\n']) (after : List Char) :
    factsOf (before ++ after) = factsOf before ++ factsOf after := by
  rcases h with rfl | ⟨start, rfl⟩
  · rfl
  · rw [List.append_assoc, List.singleton_append, factsOf, lines_append, List.filterMap_append]
    rfl

theorem parse?_append {first : Text.Utf8.Bytes} (h : EndsLine first) (directory : Path)
    (second : Text.Utf8.Bytes) :
    (parse? directory (first ++ second) = none ↔
      parse? directory first = none ∨ parse? directory second = none) ∧
    ∀ index other, parse? directory first = some index → parse? directory second = some other →
      ∃ joined, parse? directory (first ++ second) = some joined ∧
        Overridden index other joined := by
  constructor
  · rw [parse?_eq_none_iff, parse?_eq_none_iff, parse?_eq_none_iff]
    simp only [Option.eq_none_iff_forall_ne_some, ne_eq, decode?_parts_iff h]
    constructor
    · intro hnone
      by_contra hsome
      simp only [not_or, not_forall, not_not] at hsome
      obtain ⟨⟨before, hbefore⟩, after, hafter⟩ := hsome
      exact hnone _ ⟨before, after, hbefore, hafter, rfl⟩
    · rintro (hnone | hnone) text ⟨before, after, hbefore, hafter, -⟩
      · exact hnone before hbefore
      · exact hnone after hafter
  · intro index other hindex hother
    obtain ⟨before, hbefore, -⟩ := Option.map_eq_some_iff.mp hindex
    obtain ⟨after, hafter, -⟩ := Option.map_eq_some_iff.mp hother
    obtain ⟨index', hindex', hdirectory, hsays⟩ := says_of_decode? directory hbefore
    obtain ⟨other', hother', -, hmore⟩ := says_of_decode? directory hafter
    cases hindex.symm.trans hindex'
    cases hother.symm.trans hother'
    obtain ⟨joined, hjoined, hdirectory', hall⟩ := says_of_decode? directory
      ((decode?_parts_iff h).mpr ⟨before, after, hbefore, hafter, rfl⟩)
    rw [String.toList_append, factsOf_append (endsLine_text h hbefore)] at hall
    exact ⟨joined, hjoined, hsays.append hmore hall (hdirectory'.trans hdirectory.symm)⟩

structure IsValue (value : String) : Prop where
  quote : '"' ∉ value.toList
  newline : '\n' ∉ value.toList

namespace Fact

def write : Fact → String
  | online address => "<ONLINE href=\"" ++ address ++ "\">"
  | anchor id page => "<ANCHOR id=\"" ++ id ++ "\" href=\"" ++ page ++ "\">"

def Writable : Fact → Prop
  | online address => IsValue address
  | anchor id page => IsValue id ∧ IsValue page

variable {fact : Fact}

theorem fields_online {address : String} (h : IsValue address) :
    splitChars '"' (online address).write.toList =
      ["<ONLINE href=".toList, address.toList, ">".toList] := by
  have hwrite : (online address).write.toList =
      "<ONLINE href=".toList ++ '"' :: (address.toList ++ '"' :: ">".toList) := by
    simp [write]
  rw [hwrite, Text.splitChars_append, Text.splitChars_append,
    Text.splitChars_of_not_mem h.quote, Text.splitChars_of_not_mem (by decide),
    Text.splitChars_of_not_mem (by decide)]
  rfl

theorem fields_anchor {id page : String} (h : IsValue id) (hpage : IsValue page) :
    splitChars '"' (anchor id page).write.toList =
      ["<ANCHOR id=".toList, id.toList, " href=".toList, page.toList, ">".toList] := by
  have hwrite : (anchor id page).write.toList =
      "<ANCHOR id=".toList ++ '"' :: (id.toList ++ '"' ::
        (" href=".toList ++ '"' :: (page.toList ++ '"' :: ">".toList))) := by
    simp [write]
  rw [hwrite, Text.splitChars_append, Text.splitChars_append, Text.splitChars_append,
    Text.splitChars_append, Text.splitChars_of_not_mem h.quote,
    Text.splitChars_of_not_mem hpage.quote, Text.splitChars_of_not_mem (by decide),
    Text.splitChars_of_not_mem (by decide), Text.splitChars_of_not_mem (by decide)]
  rfl

theorem ofLine?_write (h : fact.Writable) : ofLine? fact.write.toList = some fact := by
  cases fact with
  | online address =>
      have hstart : startsWith "<ONLINE".toList (online address).write.toList = true := by
        simp [startsWith, write]
      rw [ofLine?, if_pos hstart, fields_online h]
      simp
  | anchor id page =>
      have hother : ¬ startsWith "<ONLINE".toList (anchor id page).write.toList = true := by
        simp [startsWith, write]
      have hstart : startsWith "<ANCHOR".toList (anchor id page).write.toList = true := by
        simp [startsWith, write]
      rw [ofLine?, if_neg hother, if_pos hstart, fields_anchor h.1 h.2]
      simp

theorem newline_not_mem_write (h : fact.Writable) : '\n' ∉ fact.write.toList := by
  cases fact with
  | online address => simp [write, h.newline]
  | anchor id page => simp [write, h.1.newline, h.2.newline]

theorem getLast?_write (fact : Fact) : fact.write.toList.getLast? = some '>' := by
  obtain ⟨start, hstart⟩ : ∃ start, fact.write = start ++ ">" := by
    cases fact with
    | online address =>
        exact ⟨"<ONLINE href=\"" ++ address ++ "\"", by simp [write, String.append_assoc]⟩
    | anchor id page =>
        exact ⟨"<ANCHOR id=\"" ++ id ++ "\" href=\"" ++ page ++ "\"",
          by simp [write, String.append_assoc]⟩
  rw [hstart, String.toList_append]
  exact List.getLast?_concat

end Fact

/-- A line that is written: a fact, or something that starts otherwise. -/
inductive Line
  | stated (fact : Fact)
  | other (text : String)
  deriving DecidableEq, Repr

inductive LineEnd
  | newline
  | returnNewline
  deriving DecidableEq, Repr

def LineEnd.returns : LineEnd → List Char
  | newline => []
  | returnNewline => ['\r']

namespace Line

def write : Line → List Char
  | stated fact => fact.write.toList
  | other text => text.toList

def fact? : Line → Option Fact
  | stated fact => some fact
  | other _ => none

def Writable : Line → Prop
  | stated fact => fact.Writable
  | other text => '\n' ∉ text.toList ∧
      ∀ start ∈ ["<ONLINE", "<ANCHOR"], ¬ start.toList <+: text.toList

variable {line : Line}

theorem newline_not_mem_write (h : line.Writable) (ending : LineEnd) :
    '\n' ∉ line.write ++ ending.returns := by
  have hline : '\n' ∉ line.write := by
    cases line with
    | stated fact => exact Fact.newline_not_mem_write h
    | other text => exact h.1
  cases ending <;> simpa [LineEnd.returns] using hline

theorem ofLine?_of_starts {text : List Char}
    (h : ∀ start ∈ ["<ONLINE", "<ANCHOR"], ¬ start.toList <+: text) : Fact.ofLine? text = none := by
  have hnot : ∀ start ∈ ["<ONLINE", "<ANCHOR"], ¬ startsWith start.toList text = true :=
    fun start hmem hstart => h start hmem (List.isPrefixOf_iff_prefix.mp hstart)
  rw [Fact.ofLine?, if_neg (hnot _ (by simp)), if_neg (hnot _ (by simp))]

theorem ofLine?_write (h : line.Writable) : Fact.ofLine? line.write = line.fact? := by
  cases line with
  | stated fact => exact Fact.ofLine?_write h
  | other text => exact ofLine?_of_starts h.2

theorem ofLine?_withoutReturn (h : line.Writable) (ending : LineEnd) :
    Fact.ofLine? (withoutReturn (line.write ++ ending.returns)) = line.fact? := by
  cases ending with
  | returnNewline =>
      have hreturn : withoutReturn (line.write ++ ['\r']) = line.write := by
        simp [withoutReturn]
      rw [LineEnd.returns, hreturn, ofLine?_write h]
  | newline =>
      rw [LineEnd.returns, List.append_nil, withoutReturn]
      split
      · next hreturn =>
          cases line with
          | stated fact => cases (Fact.getLast?_write fact).symm.trans hreturn
          -- A return at the end of another line is taken for its end, and the start is kept.
          | other text =>
              exact ofLine?_of_starts fun start hmem hstart =>
                h.2 start hmem (hstart.trans (List.dropLast_prefix _))
      · exact ofLine?_write h

theorem factsOf_write (h : line.Writable) : factsOf line.write = [line].filterMap fact? := by
  have hnewline := newline_not_mem_write h .newline
  rw [LineEnd.returns, List.append_nil] at hnewline
  rw [factsOf, lines_single hnewline]
  split
  · next hempty =>
      have hfact : line.fact? = none := by
        rw [← ofLine?_write h, List.isEmpty_iff.mp hempty]
        rfl
      rw [List.filterMap_cons_none hfact]
      rfl
  · rw [List.filterMap_cons, ofLine?_write h, List.filterMap_cons]
    rfl

end Line

def document (lines : List (Line × LineEnd)) (last : Option Line) : List Char :=
  lines.flatMap (fun (line, ending) => line.write ++ ending.returns ++ ['\n']) ++
    last.elim [] Line.write

theorem factsOf_document {lines : List (Line × LineEnd)} {last : Option Line}
    (h : ∀ line ∈ lines.map Prod.fst ++ last.toList, line.Writable) :
    factsOf (document lines last) = (lines.map Prod.fst ++ last.toList).filterMap Line.fact? := by
  induction lines with
  | nil =>
      cases last with
      | none => rfl
      | some line => exact Line.factsOf_write (h line (by simp))
  | cons entry lines ih =>
      obtain ⟨line, ending⟩ := entry
      obtain ⟨hline, hlines⟩ := List.forall_mem_cons.mp h
      have hdocument : document ((line, ending) :: lines) last =
          (line.write ++ ending.returns) ++ '\n' :: document lines last := by
        simp [document]
      have ih : (GtkDoc.Index.lines (document lines last)).filterMap Fact.ofLine? = _ := ih hlines
      rw [hdocument, factsOf, lines_cons (Line.newline_not_mem_write hline ending),
        List.filterMap_cons, Line.ofLine?_withoutReturn hline, ih, List.map_cons,
        List.cons_append, List.filterMap_cons]

theorem parse?_document {lines : List (Line × LineEnd)} {last : Option Line}
    (h : ∀ line ∈ lines.map Prod.fst ++ last.toList, line.Writable) (directory : Path) :
    ∃ index,
      parse? directory (Text.Utf8.encode (String.ofList (document lines last))) = some index ∧
      index.directory = directory ∧
      index.Says ((lines.map Prod.fst ++ last.toList).filterMap Line.fact?) := by
  obtain ⟨index, hindex, hdirectory, hfacts⟩ := says_of_decode? directory
    (Text.Utf8.decode?_encode (String.ofList (document lines last)))
  rw [String.toList_ofList, factsOf_document h] at hfacts
  exact ⟨index, hindex, hdirectory, hfacts⟩

/-- Indexes are read part by part and line by line. -/
theorem parse?_composes (directory : Path) :
    (∀ first second, EndsLine first →
      (parse? directory (first ++ second) = none ↔
        parse? directory first = none ∨ parse? directory second = none) ∧
      ∀ index other, parse? directory first = some index →
        parse? directory second = some other →
        ∃ joined, parse? directory (first ++ second) = some joined ∧
          Overridden index other joined) ∧
    ∀ lines last, (∀ line ∈ lines.map Prod.fst ++ Option.toList last, Line.Writable line) →
      ∃ index,
        parse? directory (Text.Utf8.encode (String.ofList (document lines last))) = some index ∧
        index.directory = directory ∧
        index.Says ((lines.map Prod.fst ++ last.toList).filterMap Line.fact?) :=
  ⟨fun _ second h => parse?_append h directory second,
    fun _ _ h => parse?_document h directory⟩

theorem parse?_overriding :
    (∃ joined, parse? "/refs" (Text.Utf8.encode "<ONLINE href=\"a/\">\n" ++
          Text.Utf8.encode "<ONLINE href=\"b/\">") = some joined ∧
        joined.online = some "b/") ∧
      ∃ index, parse? "/refs" (Text.Utf8.encode (String.ofList (document
          [(.stated (.anchor "Box" "old.html"), .returnNewline), (.other "<INDEX>", .newline)]
          (some (.stated (.anchor "Box" "new.html")))))) = some index ∧
        index.page? "Box" = some "new.html" := by
  obtain ⟨hparts, hlines⟩ := parse?_composes "/refs"
  constructor
  · have hends : EndsLine (Text.Utf8.encode "<ONLINE href=\"a/\">\n") := .inr (by decide +kernel)
    obtain ⟨joined, hjoined, hoverridden⟩ := (hparts _ (Text.Utf8.encode "<ONLINE href=\"b/\">")
      hends).2 { directory := "/refs", online := some "a/" }
      { directory := "/refs", online := some "b/" } (by decide +kernel) (by decide +kernel)
    exact ⟨joined, hjoined, hoverridden.online⟩
  · obtain ⟨index, hindex, -, hfacts⟩ := hlines
      [(.stated (.anchor "Box" "old.html"), .returnNewline), (.other "<INDEX>", .newline)]
      (some (.stated (.anchor "Box" "new.html"))) (by
        have hvalue : ∀ value ∈ ["Box", "old.html", "new.html"], IsValue value := by
          intro value hvalue
          simp only [List.mem_cons, List.not_mem_nil, or_false] at hvalue
          rcases hvalue with rfl | rfl | rfl <;> exact ⟨by decide, by decide⟩
        simp only [List.map_cons, List.map_nil, Option.toList_some, List.cons_append,
          List.nil_append, List.forall_mem_cons, List.not_mem_nil, false_imp_iff, implies_true,
          and_true]
        exact ⟨⟨hvalue _ (by simp), hvalue _ (by simp)⟩, ⟨by decide, by decide⟩,
          hvalue _ (by simp), hvalue _ (by simp)⟩)
    exact ⟨index, hindex, hfacts.page "Box"⟩

end GtkDoc.Index

end DocMarkup
