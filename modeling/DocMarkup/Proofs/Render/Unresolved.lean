import DocMarkup.Proofs.Comment.Gaps
import DocMarkup.Proofs.Render.Trace

/-!
Comments in which no reference is found.

What is not found shows as it is written, and each token is escaped by itself. A reference by the
number of a character has the sign of a type in it, so it is cut behind its ampersand, which is
then escaped. References by name stay as they are.
-/

namespace DocMarkup

namespace Renderer

variable {repo : Repository} {renderer : Renderer repo} {owner : Option repo.Ref}

/-- Plain text, or a reference to something that there is not. -/
def Unresolved (renderer : Renderer repo) (owner : Option repo.Ref) : Construct → Prop
  | .other => True
  | .property typeName propertyName =>
      ∀ type ∈ repo.entityOfType? typeName, type.property? propertyName = none
  | .signal typeName signalName =>
      ∀ type ∈ repo.entityOfType? typeName, type.signal? signalName = none
  | .typeName typeName =>
      repo.entityOfType? typeName = none ∧
        ∀ singular ∈ dropPlural? typeName, repo.entityOfType? singular = none
  | .enumValue member =>
      renderer.language.literal? member = none ∧ repo.entityOfSymbol? member = none
  | .parameter name =>
      ∀ ref ∈ owner, ∀ callable ∈ ref.kind.callable?, callable.parameter? name = none
  | .functionCall symbol => repo.entityOfSymbol? symbol = none
  | _ => False

theorem Unresolved.isInline {construct : Construct} (h : Unresolved renderer owner construct) :
    construct.kind?.all ConstructKind.isInline = true := by
  cases construct <;> first | rfl | exact h.elim

theorem renderToken_unresolved (hlinks : renderer.implicitLinks = false) (state : RenderState)
    {token : Comment.Token} (h : Unresolved renderer owner token.construct) :
    renderer.renderToken owner state token = .finished (.ofText token.text) state := by
  obtain ⟨construct, text⟩ := token
  cases construct with
  | other => simp [renderToken, plainText, hlinks]
  | property typeName propertyName =>
      have hnone : renderer.propertyLink? typeName propertyName = none :=
        Option.bind_eq_none_iff.mpr fun type hmem =>
          Option.bind_eq_none_iff.mpr fun property hproperty => by
            rw [h type hmem] at hproperty
            cases hproperty
      simp [renderToken, Rendering.reference, hnone]
  | signal typeName signalName =>
      have hnone : renderer.signalLink? typeName signalName = none :=
        Option.bind_eq_none_iff.mpr fun type hmem =>
          Option.bind_eq_none_iff.mpr fun signal hsignal => by
            rw [h type hmem] at hsignal
            cases hsignal
      simp [renderToken, Rendering.reference, hnone]
  | typeName typeName =>
      have hnone : renderer.typeLink? typeName = none := by
        rw [typeLink?, h.1]
        refine Option.bind_eq_none_iff.mpr fun singular hmem => ?_
        rw [h.2 singular hmem]
        rfl
      simp [renderToken, Rendering.reference, hnone]
  | enumValue member =>
      have hnone : renderer.enumValue? member = none := by
        rw [enumValue?, h.1]
        simp only [h.2]
        rfl
      simp [renderToken, Rendering.reference, hnone]
  | parameter name =>
      have hnone : renderer.parameter? owner name = none := by
        refine Option.bind_eq_none_iff.mpr fun ref href => ?_
        refine Option.bind_eq_none_iff.mpr fun callable hcallable => ?_
        rw [h ref href callable hcallable]
        rfl
      simp [renderToken, Rendering.reference, hnone]
  | functionCall symbol =>
      have hsymbol : repo.entityOfSymbol? symbol = none := h
      have hnone : renderer.callLink? symbol text = none := by
        rw [callLink?, hsymbol]
        rfl
      simp [renderToken, Rendering.reference, hnone]
  | _ => exact h.elim

theorem walk_unresolved (hlinks : renderer.implicitLinks = false)
    {document tokens : List Comment.Token} {state : RenderState}
    (reachable : ∀ token ∈ tokens, token ∈ renderer.reachable document)
    (hunresolved : ∀ token ∈ tokens, Unresolved renderer owner token.construct) :
    renderer.walk owner document state tokens reachable =
      (tokens.map fun token => ⟨state, token, .ofText token.text, state⟩, state) := by
  fun_induction Renderer.walk renderer owner document state tokens reachable with
  | case1 state => rfl
  | case2 state token rest _ _ output after h later last hlater _ ih =>
      have hrendered :=
        renderToken_unresolved hlinks state (hunresolved token List.mem_cons_self)
      cases hrendered.symm.trans h
      rw [hlater] at ih
      obtain ⟨rfl, rfl⟩ :=
        Prod.mk.inj (ih fun other hmem => hunresolved other (List.mem_cons_of_mem _ hmem))
      rfl
  | case3 state token rest _ _ path text h inner after hinner later last hlater _ ihInner ihLater =>
      have hrendered :=
        renderToken_unresolved hlinks state (hunresolved token List.mem_cons_self)
      cases hrendered.symm.trans h

theorem markup_unresolved (hlinks : renderer.implicitLinks = false) {text : String}
    (hunresolved : ∀ token ∈ renderer.tokens text, Unresolved renderer owner token.construct) :
    (renderer.comment owner (some text)).markup.toList =
      "<p>".toList ++ (renderer.tokens text).flatMap
        (fun token => Text.escapeChars token.text.toList) ++ "</p>".toList := by
  have htrace : renderer.trace owner {} text =
      ((renderer.tokens text).map fun token => ⟨{}, token, .ofText token.text, {}⟩, {}) :=
    walk_unresolved hlinks _ hunresolved
  have hsteps : renderer.steps owner {} text =
      (renderer.tokens text).map fun token => ⟨{}, token, .ofText token.text, {}⟩ := by
    rw [steps, htrace]
  have hlast : (renderer.inline owner {} text).2 = {} := by
    rw [inline, htrace]
  have hopen : (documentStart {}).flatMap Page.Chunk.write = "<p>".toList := by decide
  have hclose : (documentEnd {} {}).flatMap Page.Chunk.write = "</p>".toList := by decide
  have htoken (token : Comment.Token) :
      (Output.ofText token.text).chunks.flatMap Page.Chunk.write =
        Text.escapeChars token.text.toList := by
    simp [Output.ofText, Output.ofMarkup, Output.ofChunks, Page.Chunk.write]
  show (Page.write (renderer.document owner {} text).1.chunks).toList = _
  rw [chunks_document, hsteps, hlast, outputOf, List.flatMap_map, Page.toList_write,
    List.flatMap_append, List.flatMap_append, List.flatMap_assoc, hopen, hclose]
  simp only [htoken]

theorem escapeChars_tokens (hgrammar : Comment.IsGrammar renderer.grammar) {text : String}
    (hunresolved : ∀ token ∈ renderer.tokens text, Unresolved renderer owner token.construct) :
    (renderer.tokens text).flatMap (fun token => Text.escapeChars token.text.toList) =
      Text.escapeKeeping Text.startsNamed text.toList := by
  rw [tokens, Comment.tokens, hgrammar.scan_eq] at hunresolved ⊢
  rw [List.flatMap_map]
  refine Comment.escapeKeeping_tokens 0 fun token hmem => ?_
  exact (hunresolved _ (List.mem_map_of_mem hmem)).isInline

/-- A comment in which no reference is found shows as it is written, with the characters escaped
that have a meaning in markup and references by name kept. So it shows as the escaped text just
if it has no reference by the number of a character. -/
theorem comment_unresolved (hgrammar : Comment.IsGrammar renderer.grammar)
    (hlinks : renderer.implicitLinks = false) {text : String}
    (hunresolved : ∀ token ∈ renderer.tokens text, Unresolved renderer owner token.construct) :
    (renderer.comment owner (some text)).markup =
        "<p>" ++ String.ofList (Text.escapeKeeping Text.startsNamed text.toList) ++ "</p>" ∧
      ((renderer.comment owner (some text)).markup = "<p>" ++ Text.escape text ++ "</p>" ↔
        ¬ Text.HasNumeric text.toList) := by
  have hmarkup : (renderer.comment owner (some text)).markup =
      "<p>" ++ String.ofList (Text.escapeKeeping Text.startsNamed text.toList) ++ "</p>" := by
    rw [← escapeChars_tokens hgrammar hunresolved]
    apply String.toList_inj.mp
    simpa using markup_unresolved hlinks hunresolved
  refine ⟨hmarkup, ?_⟩
  rw [hmarkup, ← Text.escapeNamed_eq_iff, Text.escape]
  constructor
  · intro heq
    simpa [← String.toList_inj] using heq
  · intro heq
    rw [heq]

theorem comment_unresolved_bare :
    (∀ token ∈ bare.tokens "&amp; #Foo::bar @n &lt", Unresolved bare none token.construct) ∧
      (bare.comment none (some "&amp; #Foo::bar @n &lt")).markup =
        "<p>" ++ Text.escape "&amp; #Foo::bar @n &lt" ++ "</p>" := by
  have htokens : bare.tokens "&amp; #Foo::bar @n &lt" =
      [⟨.other, "&amp; "⟩, ⟨.signal "Foo" "bar", "#Foo::bar"⟩, ⟨.other, " "⟩,
        ⟨.parameter "n", "@n"⟩, ⟨.other, " &lt"⟩] := by decide +kernel
  have htype : Repository.bare.entityOfType? "Foo" = none := by decide +kernel
  have hunresolved : ∀ token ∈ bare.tokens "&amp; #Foo::bar @n &lt",
      Unresolved bare none token.construct := by
    rw [htokens]
    simp [Unresolved, htype]
  refine ⟨hunresolved, (comment_unresolved isGrammar_bare rfl hunresolved).2.mpr ?_⟩
  rw [← Text.escapeNamed_eq_iff]
  decide +kernel

/-- An ampersand before the number of a character is escaped, although nothing is found. -/
theorem not_escaped_numeric :
    (∀ token ∈ bare.tokens "&#169;", Unresolved bare none token.construct) ∧
      (bare.comment none (some "&#169;")).markup ≠ "<p>" ++ Text.escape "&#169;" ++ "</p>" := by
  have htokens : bare.tokens "&#169;" =
      [⟨.other, "&"⟩, ⟨.typeName "169", "#169"⟩, ⟨.other, ";"⟩] := by decide +kernel
  have htype : Repository.bare.entityOfType? "169" = none := by decide +kernel
  constructor
  · rw [htokens]
    simp [Unresolved, htype, show dropPlural? "169" = none by decide +kernel]
  · decide +kernel

end Renderer

end DocMarkup
