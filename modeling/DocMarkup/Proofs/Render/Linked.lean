import Mathlib.Data.List.Basic
import DocMarkup.Proofs.Render.Trace
import DocMarkup.Render.Session

/-!
The entities that a call links to, and the namespaces that are reported for it.

Links to what is documented rely on no reference. Other links rely on that of the namespace of
their entity, and if it is incomplete they come with a notice that has the name of the namespace.
-/

namespace DocMarkup

/-- There is no reference of the namespace, or no online copy where one is asked for, or it is
that of another version. -/
inductive GtkDoc.Incomplete (gtkDoc : GtkDoc) (space : Namespace) : Prop
  | missing (hnone : gtkDoc.find? space = none)
  | notOnline {found : GtkDoc.Finding} (hfound : gtkDoc.find? space = some found)
      (hasked : gtkDoc.online = true) (hnone : found.index.online = none)
  | approximate {found : GtkDoc.Finding} (hfound : gtkDoc.find? space = some found)
      (hother : found.exact = false)

namespace GtkDoc

theorem isSome_problem?_iff {gtkDoc : GtkDoc} {space : Namespace} :
    (gtkDoc.problem? space).isSome = true ↔ gtkDoc.Incomplete space := by
  unfold problem?
  cases hfind : gtkDoc.find? space with
  | none => exact iff_of_true rfl (.missing hfind)
  | some found =>
      simp only
      constructor
      · intro h
        split at h
        · next honline =>
            rw [Bool.and_eq_true, Option.isNone_iff_eq_none] at honline
            exact .notOnline hfind honline.1 honline.2
        · split at h
          · cases h
          · next hother => exact .approximate hfind (by simpa using hother)
      · intro h
        cases h with
        | missing hnone => cases hfind.symm.trans hnone
        | notOnline hfound hasked hnone =>
            cases hfind.symm.trans hfound
            simp [hasked, hnone]
        | approximate hfound hother =>
            cases hfind.symm.trans hfound
            rw [hother]
            split <;> rfl

/-- The name of the namespace that is reported for a link to an entity. -/
def reportedSpace? {repo : Repository} (gtkDoc : GtkDoc) (ref : repo.Ref) : Option String :=
  if ref.isDocumented then none
  else (gtkDoc.problem? ref.namespaceOf).map fun _ => ref.namespaceOf.name

theorem reportedSpace?_eq_some_iff {repo : Repository} {gtkDoc : GtkDoc} {ref : repo.Ref}
    {name : String} :
    gtkDoc.reportedSpace? ref = some name ↔
      ref.isDocumented = false ∧ gtkDoc.Incomplete ref.namespaceOf ∧
        ref.namespaceOf.name = name := by
  unfold reportedSpace?
  cases hdocumented : ref.isDocumented with
  | true => simp
  | false =>
      simp [← isSome_problem?_iff, Option.isSome_iff_exists]

end GtkDoc

namespace LinkStyle

variable {repo : Repository} {style : LinkStyle repo} {gtkDoc : GtkDoc}

theorem target_space (style : LinkStyle repo) (ref : repo.Ref) :
    (style.target ref).1.space = ref.space := by
  fun_induction LinkStyle.target style ref with
  | case1 ref hparent => rfl
  | case2 ref owner hparent hsuffix linked names htarget ih =>
      rw [htarget] at ih
      exact ih
  | case3 ref owner hparent hsuffix => rfl

theorem space_notice? (hgtkDoc : style.gtkDoc = some gtkDoc) (ref : repo.Ref) :
    (style.notice? ref).map ReferenceNotice.space = gtkDoc.reportedSpace? ref := by
  unfold notice? GtkDoc.reportedSpace?
  cases ref.isDocumented with
  | true => rfl
  | false =>
      simp [hgtkDoc, Function.comp_def]

theorem space_renderedNotice? (hgtkDoc : style.gtkDoc = some gtkDoc) (ref : repo.Ref) :
    (style.renderedNotice? ref).map ReferenceNotice.space = gtkDoc.reportedSpace? ref := by
  have hspace := style.target_space ref
  rw [renderedNotice?, space_notice? hgtkDoc]
  unfold GtkDoc.reportedSpace? Repository.Ref.isDocumented Repository.Ref.namespaceOf
  rw [hspace]

end LinkStyle

def Output.spaces (output : Output) : List String :=
  output.notices.filterMap Notice.space?

theorem Output.spaces_append (first second : Output) :
    (first ++ second).spaces = first.spaces ++ second.spaces :=
  List.filterMap_append

theorem Output.spaces_join (outputs : List Output) :
    (Output.join outputs).spaces = outputs.flatMap Output.spaces := by
  induction outputs with
  | nil => rfl
  | cons output rest ih => rw [join, spaces_append, ih, List.flatMap_cons]

namespace Renderer

variable {repo : Repository} {renderer : Renderer repo} {owner : Option repo.Ref}

def wordRef? : Text.Fragment × String → Option repo.Ref
  | (.word, word) => repo.entityOfWord? word
  | _ => none

/-- The entities of the words of plain text, if these are links. -/
def wordRefs (renderer : Renderer repo) (text : String) : List repo.Ref :=
  if renderer.implicitLinks then
    (Text.Fragment.split (Text.escape text)).filterMap wordRef?
  else []

/-- The entity that a construct refers to. -/
def namedRef? (renderer : Renderer repo) : Construct → Option repo.Ref
  | .property typeName propertyName =>
      (repo.entityOfType? typeName).bind (·.property? propertyName)
  | .signal typeName signalName => (repo.entityOfType? typeName).bind (·.signal? signalName)
  | .typeName typeName =>
      (repo.entityOfType? typeName).or ((dropPlural? typeName).bind repo.entityOfType?)
  | .enumValue member =>
      if (renderer.language.literal? member).isSome then none else repo.entityOfSymbol? member
  | .functionCall symbol => repo.entityOfSymbol? symbol
  | _ => none

/-- A file that is included in code is plain text. -/
def includedRefs (renderer : Renderer repo) (state : RenderState) (name : String) :
    List repo.Ref :=
  match renderer.findFile? name with
  | some (path, contents) =>
      if state.including.contains (Path.components path) then []
      else if state.inCode then renderer.wordRefs contents
      else []
  | none => []

def tokenRefs (renderer : Renderer repo) (state : RenderState) (token : Comment.Token) :
    List repo.Ref :=
  match token.construct with
  | .other => renderer.wordRefs token.text
  | .inclusion name => renderer.includedRefs state name
  | construct => (renderer.namedRef? construct).toList

/-- The entities that a call links to. -/
def linked (renderer : Renderer repo) : Call repo → List repo.Ref
  | .comment owner (some text) =>
      (renderer.steps owner {} text).flatMap fun step =>
        renderer.tokenRefs step.before step.token
  | .comment _ none => []
  | .link ref _ _ => ref.toList
  | .hierarchy ref =>
      (PathTree.verticesOfAll (Hierarchy.build ref).trees).filterMap (Hierarchy.build ref).entity?

section

variable {gtkDoc : GtkDoc}

theorem spaces_link (hgtkDoc : renderer.style.gtkDoc = some gtkDoc) (ref : Option repo.Ref)
    (text : Option String) (plural : Bool) :
    (renderer.link ref text plural).spaces = ref.toList.filterMap gtkDoc.reportedSpace? := by
  cases ref with
  | none => rfl
  | some ref =>
      have hspace := LinkStyle.space_renderedNotice? hgtkDoc ref
      show ((renderer.style.renderedNotice? ref).toList.map Notice.reference).filterMap
        Notice.space? = _
      cases hnotice : renderer.style.renderedNotice? ref with
      | none => simp [← hspace, hnotice]
      | some notice => simp [← hspace, hnotice, Notice.space?]

theorem spaces_word (hgtkDoc : renderer.style.gtkDoc = some gtkDoc)
    (fragment : Text.Fragment × String) :
    (renderer.word fragment).spaces =
      (wordRef? fragment : Option repo.Ref).toList.filterMap gtkDoc.reportedSpace? := by
  obtain ⟨fragment, piece⟩ := fragment
  cases fragment with
  | word =>
      simp only [word, wordRef?]
      cases repo.entityOfWord? piece with
      | none => rfl
      | some ref => exact spaces_link hgtkDoc (some ref) (some piece) false
  | _ => rfl

theorem spaces_plainText (hgtkDoc : renderer.style.gtkDoc = some gtkDoc) (text : String) :
    (renderer.plainText text).spaces =
      (renderer.wordRefs text).filterMap gtkDoc.reportedSpace? := by
  unfold plainText wordRefs
  split
  · rw [Output.spaces_join, List.flatMap_map]
    induction Text.Fragment.split (Text.escape text) with
    | nil => rfl
    | cons fragment rest ih =>
        rw [List.flatMap_cons, ih, spaces_word hgtkDoc]
        cases hword : (wordRef? fragment : Option repo.Ref) with
        | none => rw [List.filterMap_cons_none hword]; rfl
        | some ref => rw [List.filterMap_cons_some hword, ← List.filterMap_append]; rfl
  · rfl

theorem spaces_reference {state after : RenderState} {text : String} {link : Option Output}
    {output : Output} (h : Rendering.reference state text link = .finished output after) :
    output.spaces = (link.getD {}).spaces := by
  cases h
  cases link <;> rfl

theorem spaces_found (hgtkDoc : renderer.style.gtkDoc = some gtkDoc) (ref : Option repo.Ref)
    (text : Option String) (plural : Bool) :
    ((ref.bind fun ref => some (renderer.link (some ref) text plural)).getD {}).spaces =
      ref.toList.filterMap gtkDoc.reportedSpace? := by
  cases ref with
  | none => rfl
  | some ref => exact spaces_link hgtkDoc (some ref) text plural

theorem spaces_propertyLink? (hgtkDoc : renderer.style.gtkDoc = some gtkDoc)
    (typeName propertyName : String) :
    ((renderer.propertyLink? typeName propertyName).getD {}).spaces =
      (renderer.namedRef? (.property typeName propertyName)).toList.filterMap
        gtkDoc.reportedSpace? := by
  rw [← spaces_found hgtkDoc _ (some propertyName) false, namedRef?, Option.bind_assoc]
  rfl

theorem spaces_signalLink? (hgtkDoc : renderer.style.gtkDoc = some gtkDoc)
    (typeName signalName : String) :
    ((renderer.signalLink? typeName signalName).getD {}).spaces =
      (renderer.namedRef? (.signal typeName signalName)).toList.filterMap
        gtkDoc.reportedSpace? := by
  rw [← spaces_found hgtkDoc _ none false, namedRef?, Option.bind_assoc]
  rfl

theorem spaces_typeLink? (hgtkDoc : renderer.style.gtkDoc = some gtkDoc) (typeName : String) :
    ((renderer.typeLink? typeName).getD {}).spaces =
      (renderer.namedRef? (.typeName typeName)).toList.filterMap gtkDoc.reportedSpace? := by
  simp only [typeLink?, namedRef?]
  cases repo.entityOfType? typeName with
  | some ref => exact spaces_link hgtkDoc (some ref) none false
  | none =>
      rw [Option.none_or, ← spaces_found hgtkDoc _ none true, Option.bind_assoc]
      rfl

theorem spaces_symbol (hgtkDoc : renderer.style.gtkDoc = some gtkDoc) (symbol : String)
    (text : Option String) :
    (((repo.entityOfSymbol? symbol).map (renderer.link · text false)).getD {}).spaces =
      (repo.entityOfSymbol? symbol).toList.filterMap gtkDoc.reportedSpace? := by
  cases repo.entityOfSymbol? symbol with
  | none => rfl
  | some ref => exact spaces_link hgtkDoc (some ref) text false

theorem spaces_enumValue? (hgtkDoc : renderer.style.gtkDoc = some gtkDoc) (member : String) :
    ((renderer.enumValue? member).getD {}).spaces =
      (renderer.namedRef? (.enumValue member)).toList.filterMap gtkDoc.reportedSpace? := by
  simp only [enumValue?, namedRef?]
  cases renderer.language.literal? member with
  | some literal => rfl
  | none => exact spaces_symbol hgtkDoc member none

theorem spaces_callLink? (hgtkDoc : renderer.style.gtkDoc = some gtkDoc) (symbol call : String) :
    ((renderer.callLink? symbol call).getD {}).spaces =
      (renderer.namedRef? (.functionCall symbol)).toList.filterMap gtkDoc.reportedSpace? :=
  spaces_symbol hgtkDoc symbol (some call)

theorem spaces_parameter? (owner : Option repo.Ref) (name : String) :
    ((renderer.parameter? owner name).getD {}).spaces = [] := by
  cases hparameter : renderer.parameter? owner name with
  | none => rfl
  | some found =>
      obtain ⟨ref, -, hfound⟩ := Option.bind_eq_some_iff.mp hparameter
      obtain ⟨callable, -, hfound⟩ := Option.bind_eq_some_iff.mp hfound
      obtain ⟨parameter, -, hfound⟩ := Option.bind_eq_some_iff.mp hfound
      cases hfound
      rfl

theorem spaces_renderInclusion (hgtkDoc : renderer.style.gtkDoc = some gtkDoc)
    {state after : RenderState} {name text : String} {output : Output}
    (h : renderer.renderInclusion state name text = .finished output after) :
    output.spaces = (renderer.includedRefs state name).filterMap gtkDoc.reportedSpace? := by
  unfold renderInclusion at h
  unfold includedRefs
  cases hfind : renderer.findFile? name with
  | none =>
      rw [hfind] at h
      cases h
      rfl
  | some found =>
      obtain ⟨path, contents⟩ := found
      simp only [hfind, List.contains_iff_mem] at h ⊢
      by_cases hincluding : Path.components path ∈ state.including
      · rw [if_pos hincluding] at h ⊢
        cases h
        rfl
      · rw [if_neg hincluding] at h ⊢
        split at h
        · next hcode =>
            cases h
            rw [if_pos hcode]
            exact spaces_plainText hgtkDoc contents
        · cases h

theorem spaces_token (hgtkDoc : renderer.style.gtkDoc = some gtkDoc) {state after : RenderState}
    {token : Comment.Token} {output : Output}
    (h : renderer.renderToken owner state token = .finished output after) :
    output.spaces = (renderer.tokenRefs state token).filterMap gtkDoc.reportedSpace? := by
  obtain ⟨construct, text⟩ := token
  cases construct with
  | other =>
      cases h
      exact spaces_plainText hgtkDoc text
  | newLine | codeStart | codeStartWithLanguage | codeEnd =>
      cases h
      rfl
  | newParagraph | note | heading =>
      simp only [renderToken] at h
      split at h <;> cases h <;> rfl
  | property typeName propertyName =>
      exact (spaces_reference h).trans (spaces_propertyLink? hgtkDoc typeName propertyName)
  | signal typeName signalName =>
      exact (spaces_reference h).trans (spaces_signalLink? hgtkDoc typeName signalName)
  | typeName typeName => exact (spaces_reference h).trans (spaces_typeLink? hgtkDoc typeName)
  | enumValue member => exact (spaces_reference h).trans (spaces_enumValue? hgtkDoc member)
  | parameter name => exact (spaces_reference h).trans (spaces_parameter? owner name)
  | functionCall symbol =>
      exact (spaces_reference h).trans (spaces_callLink? hgtkDoc symbol text)
  | inclusion name => exact spaces_renderInclusion hgtkDoc h

theorem spaces_comment (hgtkDoc : renderer.style.gtkDoc = some gtkDoc) (text : String) :
    (renderer.comment owner (some text)).spaces =
      (renderer.linked (.comment owner (some text))).filterMap gtkDoc.reportedSpace? := by
  have hjoin : (renderer.inline owner {} text).1 =
      Output.join ((renderer.steps owner {} text).map Step.output) := rfl
  have hdocument : (renderer.comment owner (some text)).spaces =
      (renderer.inline owner {} text).1.spaces := by
    simp [comment, document, Output.spaces, Output.ofChunks]
  have hsteps : ∀ step ∈ renderer.steps owner {} text, step.output.spaces =
      (renderer.tokenRefs step.before step.token).filterMap gtkDoc.reportedSpace? :=
    fun step hmem => spaces_token hgtkDoc (steps_sound hmem).rendered
  rw [hdocument, hjoin, Output.spaces_join, List.flatMap_map, linked, List.filterMap_flatMap]
  exact List.flatMap_congr hsteps

theorem spaces_hierarchyTree (hgtkDoc : renderer.style.gtkDoc = some gtkDoc) (ref : repo.Ref) :
    (renderer.hierarchyTree ref).spaces =
      (renderer.linked (.hierarchy ref)).filterMap gtkDoc.reportedSpace? := by
  have hnotice : ∀ name,
      (((Hierarchy.build ref).entity? name).bind renderer.style.notice?).bind
          (Notice.space? ∘ Notice.reference) =
        ((Hierarchy.build ref).entity? name).bind gtkDoc.reportedSpace? := by
    intro name
    rw [Option.bind_assoc]
    refine Option.bind_congr fun entity _ => ?_
    rw [← LinkStyle.space_notice? hgtkDoc, Option.map_eq_bind]
    rfl
  rw [Output.spaces, hierarchyTree, Hierarchy.notices, linked, List.filterMap_map,
    List.filterMap_filterMap, List.filterMap_filterMap]
  exact List.filterMap_congr fun name _ => hnotice name

theorem spaces_answer (hgtkDoc : renderer.style.gtkDoc = some gtkDoc) (call : Call repo) :
    (renderer.answer call).spaces = (renderer.linked call).filterMap gtkDoc.reportedSpace? := by
  cases call with
  | comment owner text =>
      cases text with
      | none => rfl
      | some text => exact spaces_comment hgtkDoc text
  | link ref text plural => exact spaces_link hgtkDoc ref text plural
  | hierarchy ref => exact spaces_hierarchyTree hgtkDoc ref

end

end Renderer

end DocMarkup
