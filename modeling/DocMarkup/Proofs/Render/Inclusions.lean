import Mathlib.Data.List.Dedup
import Mathlib.Data.List.Perm.Subperm
import Mathlib.Logic.Relation
import DocMarkup.Proofs.Render.Trace

/-!
How deeply files are included.

Rendering is followed one construct, one start and one end of a file at a time. A file is only
entered if it is not on the stack of those that are being included, and what may be on the stack
are the candidates of the names written in the document and in files. So the stack stays short,
and rendering comes to its end.
-/

namespace DocMarkup

def RenderState.leaveInnermost (state : RenderState) : RenderState :=
  { state with including := state.including.tail }

def Construct.inclusion? : Construct → Option String
  | inclusion name => some name
  | _ => none

namespace Renderer

variable {repo : Repository} {renderer : Renderer repo} {owner : Option repo.Ref}

/-- How far rendering is: the steps done, the state after them, and the constructs that are left
in each of the files being included and in the document, innermost first. -/
structure Progress where
  done : List Step := []
  state : RenderState
  left : List (List Comment.Token)

def Progress.start (renderer : Renderer repo) (state : RenderState) (text : String) : Progress where
  state := state
  left := [renderer.tokens text]

/-- One construct is rendered, or a file starts or ends. -/
inductive Advances (renderer : Renderer repo) (owner : Option repo.Ref) :
    Progress → Progress → Prop
  | construct {done : List Step} {state after : RenderState} {token : Comment.Token}
      {rest : List Comment.Token} {outer : List (List Comment.Token)} {output : Output}
      (h : renderer.renderToken owner state token = .finished output after) :
      Advances renderer owner ⟨done, state, (token :: rest) :: outer⟩
        ⟨done ++ [⟨state, token, output, after⟩], after, rest :: outer⟩
  | enter {done : List Step} {state : RenderState} {token : Comment.Token}
      {rest : List Comment.Token} {outer : List (List Comment.Token)} {path : Path}
      {text : String} (h : renderer.renderToken owner state token = .splice path text) :
      Advances renderer owner ⟨done, state, (token :: rest) :: outer⟩
        ⟨done, state.enterFile (Path.components path), renderer.tokens text :: rest :: outer⟩
  | leave {done : List Step} {state : RenderState} {rest : List Comment.Token}
      {outer : List (List Comment.Token)} :
      Advances renderer owner ⟨done, state, [] :: rest :: outer⟩
        ⟨done, state.leaveInnermost, rest :: outer⟩

def Ends (renderer : Renderer repo) (owner : Option repo.Ref) (progress : Progress) : Prop :=
  Acc (fun later earlier => Advances renderer owner earlier later) progress

theorem walk_including {document tokens : List Comment.Token} {state : RenderState}
    (reachable : ∀ token ∈ tokens, token ∈ renderer.reachable document) :
    (renderer.walk owner document state tokens reachable).2.including = state.including := by
  fun_induction Renderer.walk renderer owner document state tokens reachable with
  | case1 state => rfl
  | case2 state token rest _ _ output after h later last hlater _ ih =>
      rw [hlater] at ih
      exact ih.trans (renderToken_including h)
  | case3 state token rest _ _ path text h inner after hinner later last hlater _ ihInner ihLater =>
      rw [hlater] at ihLater
      exact ihLater

/-- A file that was entered is the one that is taken off the stack at its end. -/
theorem leaveInnermost_eq {state after : RenderState} {file : List String}
    (h : after.including = (state.enterFile file).including) :
    after.leaveInnermost = after.leaveFile state := by
  simp [RenderState.leaveInnermost, RenderState.leaveFile, h, RenderState.enterFile]

theorem walk_advances {document tokens : List Comment.Token} {state : RenderState}
    (reachable : ∀ token ∈ tokens, token ∈ renderer.reachable document) (done : List Step)
    (outer : List (List Comment.Token)) :
    Relation.ReflTransGen (Advances renderer owner) ⟨done, state, tokens :: outer⟩
      ⟨done ++ (renderer.walk owner document state tokens reachable).1,
        (renderer.walk owner document state tokens reachable).2, [] :: outer⟩ := by
  fun_induction Renderer.walk renderer owner document state tokens reachable
    generalizing done outer with
  | case1 state =>
      rw [List.append_nil]
  | case2 state token rest _ _ output after h later last hlater _ ih =>
      rw [hlater] at ih
      have hrest := ih (done ++ [⟨state, token, output, after⟩]) outer
      rw [List.append_assoc] at hrest
      exact .head (.construct h) hrest
  | case3 state token rest _ _ path text h inner after hinner later last hlater _
      ihInner ihLater =>
      have hincluding : after.including = (state.enterFile (Path.components path)).including := by
        calc after.including
          _ = (renderer.walk owner document _ _ _).2.including := by rw [hinner]
          _ = _ := walk_including _
      rw [hinner] at ihInner
      rw [hlater] at ihLater
      have hrest := ihLater (done ++ inner) outer
      rw [List.append_assoc, ← leaveInnermost_eq hincluding] at hrest
      exact .head (.enter h) ((ihInner done (rest :: outer)).trans (.head .leave hrest))

theorem Advances.unique {progress first second : Progress}
    (hfirst : Advances renderer owner progress first)
    (hsecond : Advances renderer owner progress second) : first = second := by
  cases hfirst with
  | construct hrendered =>
      cases hsecond with
      | construct hother =>
          cases hrendered.symm.trans hother
          rfl
      | enter hother => cases hrendered.symm.trans hother
  | enter hrendered =>
      cases hsecond with
      | construct hother => cases hrendered.symm.trans hother
      | enter hother =>
          cases hrendered.symm.trans hother
          rfl
  | leave =>
      cases hsecond
      rfl

/-- As there is one way to advance at most, it is enough that one run comes to an end. -/
theorem ends_of_run {progress last : Progress}
    (hrun : Relation.ReflTransGen (Advances renderer owner) progress last)
    (hlast : ∀ later, ¬ Advances renderer owner last later) : Ends renderer owner progress := by
  induction hrun using Relation.ReflTransGen.head_induction_on with
  | refl => exact .intro _ fun later h => absurd h (hlast later)
  | head hstep _ ih =>
      refine .intro _ fun later h => ?_
      rw [h.unique hstep]
      exact ih

def includedNames (renderer : Renderer repo) (text : String) : List String :=
  (renderer.reachable (renderer.tokens text)).filterMap fun token => token.construct.inclusion?

/-- What holds at any time of a rendering that starts outside all files. -/
structure Progress.Stacked (renderer : Renderer repo) (text : String) (progress : Progress) :
    Prop where
  nodup : progress.state.including.Nodup
  candidate : ∀ file ∈ progress.state.including, ∃ name ∈ renderer.includedNames text,
    ∃ path ∈ renderer.candidates name, file = Path.components path
  reachable : ∀ tokens ∈ progress.left, ∀ token ∈ tokens,
    token ∈ renderer.reachable (renderer.tokens text)

section

variable {text : String}

theorem stacked_start : (Progress.start renderer {} text).Stacked renderer text where
  nodup := List.nodup_nil
  candidate := fun _ hmem => nomatch hmem
  reachable := by
    intro tokens hmem token htoken
    cases List.mem_singleton.mp hmem
    exact List.mem_append_left _ htoken

theorem Advances.stacked {before after : Progress} (h : Advances renderer owner before after)
    (hbefore : before.Stacked renderer text) : after.Stacked renderer text := by
  obtain ⟨hnodup, hcandidate, hreachable⟩ := hbefore
  cases h with
  | construct hrendered =>
      have hincluding := renderToken_including hrendered
      obtain ⟨hfirst, houter⟩ := List.forall_mem_cons.mp hreachable
      refine ⟨hincluding ▸ hnodup, hincluding ▸ hcandidate, ?_⟩
      exact List.forall_mem_cons.mpr ⟨fun token hmem => hfirst token (List.mem_cons_of_mem _ hmem),
        houter⟩
  | @enter done state token rest outer path inside hrendered =>
      obtain ⟨hfirst, houter⟩ := List.forall_mem_cons.mp hreachable
      have htoken := hfirst token List.mem_cons_self
      obtain ⟨name, hconstruct, hfind, hnew⟩ := renderToken_splice hrendered
      have hname : name ∈ renderer.includedNames text :=
        List.mem_filterMap.mpr ⟨token, htoken, by rw [hconstruct]; rfl⟩
      refine ⟨List.nodup_cons.mpr ⟨hnew, hnodup⟩, ?_, ?_⟩
      · exact List.forall_mem_cons.mpr
          ⟨⟨name, hname, path, (findFile?_sound hfind).1, rfl⟩, hcandidate⟩
      · have hinside := (splice_reachable hrendered htoken).2.2.2
        exact List.forall_mem_cons.mpr ⟨hinside, List.forall_mem_cons.mpr
          ⟨fun other hmem => hfirst other (List.mem_cons_of_mem _ hmem), houter⟩⟩
  | leave =>
      refine ⟨hnodup.tail, ?_, (List.forall_mem_cons.mp hreachable).2⟩
      exact fun file hmem => hcandidate file (List.mem_of_mem_tail hmem)

theorem stacked_of_run {progress : Progress}
    (hrun : Relation.ReflTransGen (Advances renderer owner)
      (.start renderer {} text) progress) : progress.Stacked renderer text := by
  induction hrun with
  | refl => exact stacked_start
  | tail _ hstep ih => exact hstep.stacked ih

theorem Progress.Stacked.length_le {progress : Progress} (h : progress.Stacked renderer text) :
    progress.state.including.length ≤
      (renderer.includedNames text).dedup.length * (1 + renderer.includePaths.length) := by
  let files := (renderer.includedNames text).dedup.flatMap fun name =>
    (renderer.candidates name).map Path.components
  have hsubset : progress.state.including ⊆ files := by
    intro file hmem
    obtain ⟨name, hname, path, hpath, rfl⟩ := h.candidate file hmem
    exact List.mem_flatMap.mpr ⟨name, List.mem_dedup.mpr hname, List.mem_map_of_mem hpath⟩
  have hlength : files.length =
      (renderer.includedNames text).dedup.length * (1 + renderer.includePaths.length) := by
    simp [files, List.length_flatMap, candidates, Nat.add_comm]
  rw [← hlength]
  exact (List.Nodup.subperm h.nodup hsubset).length_le

end

/-- Rendering ends for any files, whatever they include and by whatever names, and gives what
`walk` does. No file is ever twice on the stack of those being included, and the stack is no
longer than there are different names in includes, times one more than directories. -/
theorem inclusions_end (renderer : Renderer repo) (owner : Option repo.Ref) (text : String) :
    (∀ state, Ends renderer owner (.start renderer state text) ∧
      Relation.ReflTransGen (Advances renderer owner) (.start renderer state text)
        ⟨renderer.steps owner state text, (renderer.inline owner state text).2, [[]]⟩) ∧
    ∀ progress, Relation.ReflTransGen (Advances renderer owner) (.start renderer {} text) progress →
      progress.state.including.Nodup ∧
      progress.state.including.length ≤
        (renderer.includedNames text).dedup.length * (1 + renderer.includePaths.length) := by
  constructor
  · intro state
    have hrun : Relation.ReflTransGen (Advances renderer owner) (.start renderer state text)
        ⟨renderer.steps owner state text, (renderer.inline owner state text).2, [[]]⟩ :=
      walk_advances _ [] []
    refine ⟨ends_of_run hrun ?_, hrun⟩
    intro later h
    cases h
  · intro progress hrun
    have hstacked := stacked_of_run hrun
    exact ⟨hstacked.nodup, hstacked.length_le⟩

end Renderer

end DocMarkup
