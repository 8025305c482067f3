import DocMarkup.Proofs.Comment.Grammar
import DocMarkup.Proofs.Render.Linked

/-!
What is reported in a session.

Calls share nothing but the names that were reported, and these only tell which notices are
issued. By the end the names are those of the namespaces that were linked to and whose references
are incomplete, whatever the order of the calls.
-/

namespace DocMarkup

namespace Notice

section

variable {reported : List String} {notice : Notice} {space : String}

theorem report_unnamed (hspace : notice.space? = none) (rest : List Notice) :
    report reported (notice :: rest) =
      (notice :: (report reported rest).1, (report reported rest).2) := by
  simp [report, hspace]

theorem report_known (hspace : notice.space? = some space) (hmem : space ∈ reported)
    (rest : List Notice) : report reported (notice :: rest) = report reported rest := by
  simp [report, hspace, hmem]

theorem report_new (hspace : notice.space? = some space) (hnew : space ∉ reported)
    (rest : List Notice) :
    report reported (notice :: rest) =
      (notice :: (report (space :: reported) rest).1, (report (space :: reported) rest).2) := by
  simp [report, hspace, hnew]

end

theorem report_names (reported : List String) (notices : List Notice) :
    (report reported notices).2 =
      ((report reported notices).1.filterMap space?).reverse ++ reported := by
  induction notices generalizing reported with
  | nil => rfl
  | cons notice rest ih =>
      cases hspace : notice.space? with
      | none => rw [report_unnamed hspace, List.filterMap_cons_none hspace, ih]
      | some space =>
          by_cases hmem : space ∈ reported
          · rw [report_known hspace hmem, ih]
          · rw [report_new hspace hmem, List.filterMap_cons_some hspace, ih, List.reverse_cons,
              List.append_assoc, List.singleton_append]

theorem nodup_report {reported : List String} (h : reported.Nodup) (notices : List Notice) :
    (report reported notices).2.Nodup := by
  induction notices generalizing reported with
  | nil => exact h
  | cons notice rest ih =>
      cases hspace : notice.space? with
      | none =>
          rw [report_unnamed hspace]
          exact ih h
      | some space =>
          by_cases hmem : space ∈ reported
          · rw [report_known hspace hmem]
            exact ih h
          · rw [report_new hspace hmem]
            exact ih (List.nodup_cons.mpr ⟨hmem, h⟩)

theorem mem_report {reported : List String} {notices : List Notice} {name : String} :
    name ∈ (report reported notices).2 ↔
      name ∈ reported ∨ name ∈ notices.filterMap space? := by
  induction notices generalizing reported with
  | nil => simp [report]
  | cons notice rest ih =>
      cases hspace : notice.space? with
      | none => rw [report_unnamed hspace, List.filterMap_cons_none hspace, ih]
      | some space =>
          rw [List.filterMap_cons_some hspace, List.mem_cons]
          by_cases hmem : space ∈ reported
          · rw [report_known hspace hmem, ih]
            grind
          · rw [report_new hspace hmem, ih, List.mem_cons]
            grind

theorem issued_report {notices : List Notice} {reported before base : List String}
    (h : ∀ name, name ∈ reported ↔ name ∈ before ∨ name ∈ base) :
    (report reported notices).1 =
      (report base notices).1.filter fun notice => notice.space?.all (· ∉ before) := by
  induction notices generalizing reported base with
  | nil => rfl
  | cons notice rest ih =>
      cases hspace : notice.space? with
      | none =>
          rw [report_unnamed hspace, report_unnamed hspace, ih h, List.filter_cons_of_pos]
          rw [hspace, Option.all_none]
      | some space =>
          by_cases hbase : space ∈ base
          · rw [report_known hspace ((h space).mpr (.inr hbase)), report_known hspace hbase, ih h]
          · rw [report_new hspace hbase]
            by_cases hbefore : space ∈ before
            · rw [report_known hspace ((h space).mpr (.inl hbefore)), List.filter_cons_of_neg]
              · exact ih fun name => by grind
              · simpa [hspace] using hbefore
            · have hnew : space ∉ reported := fun hmem => ((h space).mp hmem).elim hbefore hbase
              rw [report_new hspace hnew, List.filter_cons_of_pos]
              · exact congrArg _ (ih fun name => by grind)
              · simpa [hspace] using hbefore

end Notice

namespace Renderer

variable {repo : Repository} {renderer : Renderer repo}

def Reply.without (reported : List String) (reply : Reply) : Reply :=
  { reply with issued := reply.issued.filter fun notice => notice.space?.all (· ∉ reported) }

theorem reply_eq (renderer : Renderer repo) (reported : List String) (call : Call repo) :
    (renderer.reply reported call).1 = (renderer.reply [] call).1.without reported := by
  have hissued : (Notice.report reported (renderer.answer call).notices).1 =
      (Notice.report [] (renderer.answer call).notices).1.filter fun notice =>
        notice.space?.all (· ∉ reported) :=
    Notice.issued_report fun name => by simp
  simp only [reply, Reply.without, hissued]

theorem session_cons (reported : List String) (call : Call repo) (rest : List (Call repo)) :
    renderer.session reported (call :: rest) =
      ((renderer.reply reported call).1 ::
          (renderer.session (renderer.reply reported call).2 rest).1,
        (renderer.session (renderer.reply reported call).2 rest).2) :=
  rfl

theorem session_append (reported : List String) (before after : List (Call repo)) :
    renderer.session reported (before ++ after) =
      ((renderer.session reported before).1 ++
          (renderer.session (renderer.session reported before).2 after).1,
        (renderer.session (renderer.session reported before).2 after).2) := by
  induction before generalizing reported with
  | nil => rfl
  | cons call rest ih => simp only [List.cons_append, session_cons, ih]

theorem length_session (reported : List String) (calls : List (Call repo)) :
    (renderer.session reported calls).1.length = calls.length := by
  induction calls generalizing reported with
  | nil => rfl
  | cons call rest ih => exact congrArg (· + 1) (ih _)

/-- A call is answered as if it were the only one, except for what was reported before. -/
theorem session_fresh (renderer : Renderer repo) (before after : List (Call repo))
    (call : Call repo) :
    (renderer.session [] (before ++ call :: after)).1[before.length]? =
      some ((renderer.reply [] call).1.without (renderer.session [] before).2) := by
  rw [session_append, List.getElem?_append_right (Nat.le_of_eq (length_session _ _)),
    length_session, Nat.sub_self, ← reply_eq]
  rfl

theorem session_names (reported : List String) (calls : List (Call repo)) :
    (renderer.session reported calls).2 =
      (((renderer.session reported calls).1.flatMap Reply.issued).filterMap
        Notice.space?).reverse ++ reported := by
  induction calls generalizing reported with
  | nil => rfl
  | cons call rest ih =>
      have hfirst : (renderer.reply reported call).2 =
          ((renderer.reply reported call).1.issued.filterMap Notice.space?).reverse ++ reported :=
        Notice.report_names reported _
      simp only [session_cons, List.flatMap_cons, List.filterMap_append, List.reverse_append,
        List.append_assoc]
      rw [← hfirst, ih]

theorem nodup_session {reported : List String} (h : reported.Nodup) (calls : List (Call repo)) :
    (renderer.session reported calls).2.Nodup := by
  induction calls generalizing reported with
  | nil => exact h
  | cons call rest ih => exact ih (Notice.nodup_report h _)

theorem mem_session {reported : List String} {calls : List (Call repo)} {name : String} :
    name ∈ (renderer.session reported calls).2 ↔
      name ∈ reported ∨
        ∃ call ∈ calls, name ∈ (renderer.answer call).notices.filterMap Notice.space? := by
  induction calls generalizing reported with
  | nil => simp [session]
  | cons call rest ih =>
      have hfirst : name ∈ (renderer.reply reported call).2 ↔ _ := Notice.mem_report
      rw [session_cons, ih, hfirst, or_assoc]
      simp only [List.mem_cons, exists_eq_or_imp]

theorem sorted_sortedNames (reported : List String) :
    (Notice.sortedNames reported).Pairwise (· ≤ ·) := by
  have hsorted : (Notice.sortedNames reported).Pairwise fun first second : String =>
      decide (first ≤ second) = true :=
    List.pairwise_mergeSort (fun _ _ _ => by simpa using String.le_trans)
      (fun first second => by simpa using String.le_total first second) reported
  exact hsorted.imp of_decide_eq_true

theorem perm_sortedNames (reported : List String) :
    (Notice.sortedNames reported).Perm reported :=
  List.mergeSort_perm reported _

theorem strictly_sortedNames {reported : List String} (h : reported.Nodup) :
    (Notice.sortedNames reported).Pairwise (· < ·) := by
  have hnodup : (Notice.sortedNames reported).Nodup := (perm_sortedNames reported).nodup_iff.mpr h
  refine ((sorted_sortedNames reported).and hnodup).imp fun ⟨hle, hne⟩ => ?_
  exact String.not_le.mp fun hge => hne (String.le_antisymm hle hge)

theorem sortedNames_eq {reported other : List String} (h : reported.Perm other) :
    Notice.sortedNames reported = Notice.sortedNames other :=
  List.Perm.eq_of_pairwise (fun _ _ _ _ => String.le_antisymm) (sorted_sortedNames reported)
    (sorted_sortedNames other)
    ((perm_sortedNames reported).trans (h.trans (perm_sortedNames other).symm))

theorem mem_reportedNames {gtkDoc : GtkDoc} (hgtkDoc : renderer.style.gtkDoc = some gtkDoc)
    {calls : List (Call repo)} {name : String} :
    name ∈ renderer.reportedNames calls ↔
      ∃ call ∈ calls, ∃ ref ∈ renderer.linked call, ref.isDocumented = false ∧
        gtkDoc.Incomplete ref.namespaceOf ∧ ref.namespaceOf.name = name := by
  have hcall (call : Call repo) :
      (renderer.answer call).notices.filterMap Notice.space? =
        (renderer.linked call).filterMap gtkDoc.reportedSpace? := spaces_answer hgtkDoc call
  rw [reportedNames, (perm_sortedNames _).mem_iff, mem_session]
  simp only [List.not_mem_nil, false_or, hcall, List.mem_filterMap,
    GtkDoc.reportedSpace?_eq_some_iff]

/-- The calls of a session, with links into gtk-doc references. Each is answered as if it were
the only one, except that notices on namespaces that were reported before are left out. No
namespace is reported twice. By the end just the namespaces are reported that are not the
documented one, to an entity of which a call links, and whose reference is incomplete; so the
order of the calls makes no difference. -/
theorem session_reports {gtkDoc : GtkDoc} (hgtkDoc : renderer.style.gtkDoc = some gtkDoc)
    (calls : List (Call repo)) :
    (renderer.session [] calls).1.length = calls.length ∧
    (∀ before call after, calls = before ++ call :: after →
      (renderer.session [] calls).1[before.length]? =
        some ((renderer.reply [] call).1.without (renderer.session [] before).2)) ∧
    (((renderer.session [] calls).1.flatMap Reply.issued).filterMap Notice.space?).Nodup ∧
    (renderer.reportedNames calls).Pairwise (· < ·) ∧
    (∀ name, name ∈ renderer.reportedNames calls ↔
      ∃ call ∈ calls, ∃ ref ∈ renderer.linked call, ref.isDocumented = false ∧
        gtkDoc.Incomplete ref.namespaceOf ∧ ref.namespaceOf.name = name) ∧
    ∀ other, calls.Perm other → renderer.reportedNames calls = renderer.reportedNames other := by
  have hnodup (calls : List (Call repo)) : (renderer.session [] calls).2.Nodup :=
    nodup_session List.nodup_nil calls
  refine ⟨length_session [] calls, ?_, ?_, strictly_sortedNames (hnodup calls),
    fun name => mem_reportedNames hgtkDoc, fun other hperm => sortedNames_eq ?_⟩
  · rintro before call after rfl
    exact session_fresh renderer before after call
  · have hnames := hnodup calls
    rw [session_names, List.append_nil] at hnames
    exact (List.reverse_perm _).nodup_iff.mp hnames
  · rw [List.perm_ext_iff_of_nodup (hnodup calls) (hnodup other)]
    intro name
    rw [mem_session, mem_session]
    simp only [hperm.mem_iff]

end Renderer

def Repository.withGObject : Repository :=
  .ofDecl {
    space := { name := "Gtk", version := "3.0", entities := [{ name := "Box", kind := .record }] }
    includes := [{
      name := "GObject"
      version := "2.0"
      exportedPackages := ["gobject-2.0"]
      entities := [{ name := "Object", kind := .record }] }] }

def GtkDoc.unversioned : GtkDoc :=
  ⟨⟨[("gobject", { directory := "gobject" })]⟩, false⟩

namespace Renderer

def unversioned : Renderer .withGObject where
  grammar := { source := "", pattern := Comment.pattern, rules := Comment.rules }
  style := { language := .c, gtkDoc := some .unversioned }

theorem session_reports_unversioned :
    let calls : List (Call .withGObject) :=
      [.link (Repository.withGObject.ref? 0 0) none false,
        .link (Repository.withGObject.ref? 1 0) none false,
        .link (Repository.withGObject.ref? 1 0) none true]
    unversioned.style.gtkDoc = some .unversioned ∧
      "GObject" ∈ unversioned.reportedNames calls ∧ "Gtk" ∉ unversioned.reportedNames calls ∧
      unversioned.reportedNames calls.reverse = unversioned.reportedNames calls := by
  intro calls
  have hgtkDoc : unversioned.style.gtkDoc = some .unversioned := rfl
  obtain ⟨-, -, -, -, hmem, horder⟩ := session_reports hgtkDoc calls
  have hnames : ∀ call ∈ calls, ∀ ref ∈ unversioned.linked call, ref.isDocumented = false →
      ref.namespaceOf.name = "GObject" := by decide
  refine ⟨hgtkDoc, (hmem "GObject").mpr ?_, fun hreported => ?_,
    (horder _ (List.reverse_perm calls).symm).symm⟩
  · have hfound : GtkDoc.unversioned.find? (Repository.withGObject.space ⟨1, by decide⟩) =
        some ⟨"gobject-2.0", { directory := "gobject" }, false⟩ := by decide
    exact ⟨.link (Repository.withGObject.ref? 1 0) none false, by simp [calls],
      ⟨⟨1, by decide⟩, ⟨0, by decide⟩⟩, by decide, rfl, .approximate hfound rfl, rfl⟩
  · obtain ⟨call, hcall, ref, href, hforeign, -, hname⟩ := (hmem "Gtk").mp hreported
    exact absurd ((hnames call hcall ref href hforeign).symm.trans hname) (by decide)

end Renderer

end DocMarkup
