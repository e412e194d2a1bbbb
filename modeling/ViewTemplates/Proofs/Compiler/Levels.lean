import ViewTemplates.Proofs.Compiler.Outcome

/-!
The limit on the depth of components is never met. A component is not compiled inside itself, so
with more levels than directives a compilation is the same, whatever their number.
-/

namespace ViewTemplates.Setup

variable {setup : Setup} {within : List Nat}

section walk
variable {keeps : Progress → Prop}
  {first second : DirectiveRef → ComponentSource → Work Factory}

/-- Two ways to the views of the components at some nodes do the same. -/
def ViewsAgree (setup : Setup) (keeps : Progress → Prop)
    (first second : DirectiveRef → ComponentSource → Work Factory) (kinds : List NodeKind) :
    Prop :=
  ∀ kind ∈ kinds, ∀ directive source, setup.claims kind = [.component directive source] →
    Agree keeps (first directive source) (second directive source)

theorem agree_lift {work other : Work α} (agree : Agree keeps work other) :
    Agree (fun stage : Stage ι => keeps stage.progress) (Marking.lift work)
      (Marking.lift other) := by
  intro stage kept
  rw [Marking.lift, Marking.lift, agree stage.progress kept]

theorem agree_markTree (node : ι) {kind : NodeKind} {below : Forest (ι × NodeKind)}
    (meets : ∀ directive source, setup.claims kind = [.component directive source] →
      Meets keeps (setup.faultsAt within kind) (first directive source))
    (agree : ∀ directive source, setup.claims kind = [.component directive source] →
      Agree keeps (first directive source) (second directive source))
    (preserves : Preserves (fun stage : Stage ι => keeps stage.progress)
      (setup.mark first below))
    (inner : Agree (fun stage : Stage ι => keeps stage.progress) (setup.mark first below)
      (setup.mark second below)) :
    Agree (fun stage : Stage ι => keeps stage.progress) (setup.markTree first node kind below)
      (setup.markTree second node kind below) := by
  unfold markTree
  split
  · exact .refl _
  · exact inner.bind preserves fun _ => .refl _
  next claimed =>
    exact (agree_lift (agree _ _ claimed)).bind
      (preserves_lift (meets _ _ claimed).preserves) fun _ =>
        inner.bind preserves fun _ => .refl _
  · exact (Agree.refl _).bind (preserves_edit keeps _) fun _ =>
      inner.bind preserves fun _ => .refl _
  · exact .refl _

theorem agree_mark (report : ∀ progress events, keeps progress → keeps { progress with events })
    {forest : Forest (ι × NodeKind)} (bare : (forest.map Prod.snd).Bare NodeKind.isElement)
    (meets : setup.ViewsMeet keeps within first (forest.map Prod.snd).preorder)
    (agree : setup.ViewsAgree keeps first second (forest.map Prod.snd).preorder) :
    Agree (fun stage : Stage ι => keeps stage.progress) (setup.mark first forest)
      (setup.mark second forest) := by
  induction forest with
  | nil => exact .refl _
  | cons entry below rest inner outer =>
      obtain ⟨node, kind⟩ := entry
      obtain ⟨bottom, bareBelow, bareRest⟩ := bare
      obtain ⟨meetsHere, meetsBelow, meetsRest⟩ := Forest.forall_mem_preorder_cons.mp meets
      obtain ⟨agreeHere, agreeBelow, agreeRest⟩ := Forest.forall_mem_preorder_cons.mp agree
      have below := meets_mark report bareBelow meetsBelow
      rw [mark_cons, mark_cons]
      refine (agree_markTree node meetsHere agreeHere below.preserves
        (inner bareBelow meetsBelow agreeBelow)).bind ?_ fun _ =>
          (outer bareRest meetsRest agreeRest).bind ?_ fun _ => .refl _
      · refine (meets_markTree report node (fun leaf => ?_) meetsHere below).preserves
        rw [bottom leaf]
        rfl
      · exact (meets_mark report bareRest meetsRest).preserves

theorem agree_compileMarkup
    (report : ∀ progress events, keeps progress → keeps { progress with events })
    {markup : String}
    (meets : ∀ forest events, Markup.parse markup = .ok (forest, events) →
      setup.ViewsMeet keeps within first forest.preorder)
    (agree : ∀ forest events, Markup.parse markup = .ok (forest, events) →
      setup.ViewsAgree keeps first second forest.preorder) :
    Agree keeps (setup.compileMarkup first markup) (setup.compileMarkup second markup) := by
  rw [compileMarkup, compileMarkup]
  cases parsed : Markup.parse markup with
  | error error => exact .refl _
  | ok value =>
      obtain ⟨forest, events⟩ := value
      refine (Agree.refl _).bind (meets_report report events).preserves fun _ => ?_
      intro progress kept
      have same := forest.map_snd_map_pair ()
      have marks := agree_mark report (same.symm ▸ Markup.bare_of_parse parsed)
        (same.symm ▸ meets forest events parsed) (same.symm ▸ agree forest events parsed)
        ⟨progress, []⟩ kept
      rw [compileForest, compileForest, marks]

end walk

theorem agree_building {component : Nat} {work other : Work α}
    (agree : Agree (setup.Consistent (component :: within)) work other) :
    Agree (setup.Consistent within) (building component work) (building component other) := by
  intro progress consistent
  have same := agree { progress with building := component :: progress.building }
    ⟨congrArg _ consistent.building, consistent.kept⟩
  rw [building, building, same]

/-- As long as there are more levels than directives that are left, their number does not matter. -/
theorem agree_viewOf (ascending : setup.Ascending) {levels other : Nat}
    (stack : setup.Stack levels within) (again : setup.Stack other within) {kind : NodeKind}
    {directive : DirectiveRef} {source : ComponentSource}
    (claimed : setup.claims kind = [.component directive source])
    (lead : ∀ markup, source = .inline markup → setup.LeadTo within directive.index) :
    Agree (setup.Consistent within) (setup.viewOf levels directive source)
      (setup.viewOf other directive source) := by
  induction levels generalizing other within kind directive source with
  | zero =>
      obtain ⟨_, impossible⟩ := stack.exists_eq_add_one
      cases impossible
  | succ levels induction =>
      obtain ⟨fewer, rfl⟩ := again.exists_eq_add_one
      cases source with
      | compiled factory =>
          rw [viewOf, viewOf]
          exact .refl _
      | inline inner =>
          have inline := inlineMarkup_of_claims claimed
          have lead := lead inner rfl
          intro progress consistent
          cases looked : progress.views.lookup directive.index with
          | some view => rw [viewOf_of_lookup _ looked, viewOf_of_lookup _ looked]
          | none =>
              cases repeated : progress.building.contains directive.index with
              | true =>
                  rw [viewOf_of_building _ looked repeated, viewOf_of_building _ looked repeated]
              | false =>
                  have fresh := consistent.not_mem repeated
                  have less := stack.cons fresh inline.registered
                  have needed (component : Nat) (uses : setup.Uses inner component) :
                      setup.LeadTo (directive.index :: within) component := lead.cons inline uses
                  rw [viewOf_succ _ looked repeated, viewOf_succ _ looked repeated]
                  refine Agree.bind (.refl _) ?_ (fun _ => Agree.bind (agree_building ?_)
                    (meets_building (meets_compileMarkup_viewOf less needed ascending)).preserves
                    fun _ => .refl _) progress consistent
                  · exact fun _ still => still.report _
                  refine agree_compileMarkup (fun _ _ still => still.report _)
                    (fun _ _ parsed => viewsMeet_viewOf less needed ascending parsed) ?_
                  intro forest events parsed kind member other source claimed
                  refine induction less (again.cons fresh inline.registered) claimed ?_
                  rintro markup rfl
                  exact needed _ (uses_of_claims parsed member claimed)

theorem agree_compileMarkup_viewOf (ascending : setup.Ascending) {levels other : Nat}
    (stack : setup.Stack levels within) (again : setup.Stack other within) {markup : String}
    (lead : ∀ component, setup.Uses markup component → setup.LeadTo within component) :
    Agree (setup.Consistent within) (setup.compileMarkup (setup.viewOf levels) markup)
      (setup.compileMarkup (setup.viewOf other) markup) := by
  refine agree_compileMarkup (fun _ _ still => still.report _)
    (fun _ _ parsed => viewsMeet_viewOf stack lead ascending parsed) ?_
  intro forest events parsed kind member directive source claimed
  refine agree_viewOf ascending stack again claimed ?_
  rintro inner rfl
  exact lead _ (uses_of_claims parsed member claimed)

end ViewTemplates.Setup
