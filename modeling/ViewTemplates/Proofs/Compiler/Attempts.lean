import ViewTemplates.Proofs.Compiler.Compilability

/-!
Which components are compiled, and how often. While a compilation goes on, a component is started
only if its view was not kept and it is not being compiled. Afterwards it is kept, or the whole
compilation has failed because of it, so no component is started twice.
-/

namespace ViewTemplates

/-- The component whose markup the event says is compiled now. -/
def Event.started? : Event → Option Nat
  | .compilingComponent directive => some directive.index
  | _ => none

theorem Markup.started_of_parse {source : String} {forest : Forest NodeKind} {events : List Event}
    (parsed : Markup.parse source = .ok (forest, events)) :
    events.filterMap Event.started? = [] := by
  have consumed (nesting : Nesting) (tokens : List Placed) :
      (nesting.consumeAll tokens).2.filterMap Event.started? = [] := by
    induction tokens generalizing nesting with
    | nil => rfl
    | cons placed rest induction =>
        rw [Nesting.consumeAll, List.filterMap_append, induction, List.append_nil,
          Nesting.consume]
        split
        · rfl
        · rfl
        · split <;> rfl
        · split
          · split <;> rfl
          · split <;> rfl
  rw [parse] at parsed
  split at parsed
  · cases parsed
  next tokens _ =>
    have nested : events = (nest tokens).2 := congrArg Prod.snd (Except.ok.inj parsed).symm
    rw [nested, nest, List.filterMap_append, consumed, Nesting.finish]
    cases (Nesting.empty.consumeAll tokens).1.opened.getLast? <;> rfl

namespace Progress

def started (progress : Progress) : List Nat := progress.events.filterMap Event.started?

def kept (progress : Progress) : List Nat := progress.views.map Prod.fst

/-- The markup of a component is to be compiled next. -/
def enter (progress : Progress) (directive : DirectiveRef) : Progress :=
  { progress with
    building := directive.index :: progress.building
    events := progress.events ++ [.compilingComponent directive] }

theorem started_report (progress : Progress) (events : List Event) :
    { progress with events := progress.events ++ events }.started =
      progress.started ++ events.filterMap Event.started? :=
  List.filterMap_append

theorem started_enter (progress : Progress) (directive : DirectiveRef) :
    (progress.enter directive).started = progress.started ++ [directive.index] :=
  List.filterMap_append

theorem notMem_kept {progress : Progress} {component : Nat}
    (looked : progress.views.lookup component = none) : component ∉ progress.kept := by
  intro member
  obtain ⟨entry, listed, rfl⟩ := List.mem_map.mp member
  have other := List.lookup_eq_none_iff.mp looked entry listed
  exact bne_iff_ne.mp other rfl

end Progress

/-- Between two states these components were started, each of them once, and none of those that
were kept or being compiled before. Kept views stay, and each component that was started is kept
or lost. -/
structure Attempts (lost : Nat → Prop) (before after : Progress) (components : List Nat) :
    Prop where
  started : after.started = before.started ++ components
  nodup : components.Nodup
  unkept : ∀ component ∈ components, component ∉ before.kept
  idle : ∀ component ∈ components, component ∉ before.building
  building : after.building = before.building
  kept : before.kept ⊆ after.kept
  settled : ∀ component ∈ components, component ∈ after.kept ∨ lost component

namespace Attempts

variable {lost : Nat → Prop} {before middle after : Progress} {components later : List Nat}

theorem of_started_eq (lost : Nat → Prop) (started : after.started = before.started)
    (building : after.building = before.building) (kept : before.kept ⊆ after.kept) :
    Attempts lost before after [] where
  started := by rw [started, List.append_nil]
  nodup := .nil
  unkept := nofun
  idle := nofun
  building := building
  kept := kept
  settled := nofun

theorem refl (lost : Nat → Prop) (progress : Progress) : Attempts lost progress progress [] :=
  .of_started_eq lost rfl rfl (List.Subset.refl _)

theorem report (lost : Nat → Prop) (progress : Progress) {events : List Event}
    (quiet : events.filterMap Event.started? = []) :
    Attempts lost progress { progress with events := progress.events ++ events } [] := by
  refine .of_started_eq lost ?_ rfl (List.Subset.refl _)
  rw [Progress.started_report, quiet, List.append_nil]

theorem mem_kept (attempts : Attempts (fun _ => False) before after components) {component : Nat}
    (member : component ∈ components) : component ∈ after.kept :=
  (attempts.settled component member).resolve_right id

/-- What was started first is kept, so it is not started again. -/
theorem trans (first : Attempts (fun _ => False) before middle components)
    (second : Attempts lost middle after later) :
    Attempts lost before after (components ++ later) where
  started := by rw [second.started, first.started, List.append_assoc]
  nodup := List.nodup_append'.mpr ⟨first.nodup, second.nodup, fun component begun again =>
    second.unkept component again (first.mem_kept begun)⟩
  unkept component member kept := by
    rcases List.mem_append.mp member with member | member
    · exact first.unkept component member kept
    · exact second.unkept component member (first.kept kept)
  idle component member := by
    rcases List.mem_append.mp member with member | member
    · exact first.idle component member
    · exact first.building ▸ second.idle component member
  building := second.building.trans first.building
  kept := fun _ member => second.kept (first.kept member)
  settled component member := by
    rcases List.mem_append.mp member with member | member
    · exact .inl (second.kept (first.mem_kept member))
    · exact second.settled component member

/-- The attempts inside a component, together with the one at the component itself. -/
theorem leave {directive : DirectiveRef} {last : Progress}
    (inside : Attempts lost (before.enter directive) last components)
    (unkept : directive.index ∉ before.kept) (idle : directive.index ∉ before.building)
    (events : after.events = last.events) (building : after.building = last.building.tail)
    (kept : last.kept ⊆ after.kept)
    (settled : directive.index ∈ after.kept ∨ lost directive.index) :
    Attempts lost before after (directive.index :: components) where
  started := by
    rw [Progress.started, events, ← Progress.started, inside.started, Progress.started_enter,
      List.append_assoc, List.singleton_append]
  -- Inside, the component itself is among those that are being compiled.
  nodup := List.nodup_cons.mpr
    ⟨fun again => inside.idle _ again List.mem_cons_self, inside.nodup⟩
  unkept component member := by
    rcases List.mem_cons.mp member with rfl | member
    · exact unkept
    · exact inside.unkept component member
  idle component member := by
    rcases List.mem_cons.mp member with rfl | member
    · exact idle
    · exact fun outer => inside.idle component member (List.mem_cons_of_mem _ outer)
  building := by
    rw [building, inside.building]
    rfl
  kept := fun _ member => kept (inside.kept member)
  settled component member := by
    rcases List.mem_cons.mp member with rfl | member
    · exact settled
    · exact (inside.settled component member).imp_left fun found => kept found

end Attempts

/-- How work ends that starts components: none of them is lost unless it fails. -/
def Ends (keeps : Progress → Prop) (lost : Nat → Prop) (progressOf : σ → Progress)
    (before : Progress) : EStateM.Result Error σ α → Prop
  | .ok _ next => keeps (progressOf next) ∧
      ∃ components, Attempts (fun _ => False) before (progressOf next) components
  | .error _ next => keeps (progressOf next) ∧
      ∃ components, Attempts lost before (progressOf next) components

def Advances (keeps : Progress → Prop) (lost : Nat → Prop) (progressOf : σ → Progress)
    (work : EStateM Error σ α) : Prop :=
  ∀ state, keeps (progressOf state) → Ends keeps lost progressOf (progressOf state) (work state)

namespace Advances

variable {keeps : Progress → Prop} {lost : Nat → Prop} {progressOf : σ → Progress}

theorem pure (value : α) : Advances keeps lost progressOf (pure value) :=
  fun state kept => ⟨kept, [], .refl _ (progressOf state)⟩

theorem throw (error : Error) :
    Advances keeps lost progressOf (throw error : EStateM Error σ α) :=
  fun state kept => ⟨kept, [], .refl _ (progressOf state)⟩

theorem bind {first : EStateM Error σ α} {second : α → EStateM Error σ β}
    (advances : Advances keeps lost progressOf first)
    (later : ∀ value, Advances keeps lost progressOf (second value)) :
    Advances keeps lost progressOf (first >>= second) := by
  intro state kept
  have begun := advances state kept
  cases run : first state with
  | error error next =>
      rw [run] at begun
      rw [bind_of_error run]
      exact begun
  | ok value middle =>
      rw [run] at begun
      obtain ⟨still, components, attempts⟩ := begun
      have ended := later value middle still
      rw [bind_of_ok run]
      cases rerun : second value middle with
      | ok result next =>
          rw [rerun] at ended
          obtain ⟨last, more, again⟩ := ended
          exact ⟨last, components ++ more, attempts.trans again⟩
      | error error next =>
          rw [rerun] at ended
          obtain ⟨last, more, again⟩ := ended
          exact ⟨last, components ++ more, attempts.trans again⟩

end Advances

namespace Setup

variable {setup : Setup} {within : List Nat}

section walk
variable {keeps : Progress → Prop} {lost : Nat → Prop}
  {viewOf : DirectiveRef → ComponentSource → Work Factory}

/-- The views of the components at some nodes are made by advancing. -/
def ViewsAdvance (setup : Setup) (keeps : Progress → Prop) (lost : Nat → Prop)
    (viewOf : DirectiveRef → ComponentSource → Work Factory) (kinds : List NodeKind) : Prop :=
  ∀ kind ∈ kinds, ∀ directive source, setup.claims kind = [.component directive source] →
    Advances keeps lost id (viewOf directive source)

theorem advances_lift {work : Work α} (advances : Advances keeps lost id work) :
    Advances keeps lost (Stage.progress (ι := ι)) (Marking.lift work) := by
  intro stage kept
  have result := advances stage.progress kept
  rw [Marking.lift]
  cases run : work stage.progress with
  | ok value next =>
      rw [run] at result
      exact result
  | error error next =>
      rw [run] at result
      exact result

theorem advances_edit (change : Edit ι) :
    Advances keeps lost Stage.progress (Marking.edit change) :=
  fun stage kept => ⟨kept, [], .refl _ stage.progress⟩

variable (report : ∀ progress events, keeps progress → keeps { progress with events })
include report

theorem advances_report {events : List Event} (quiet : events.filterMap Event.started? = []) :
    Advances keeps lost id (Work.report events) :=
  fun progress kept => ⟨report progress _ kept, [], .report _ progress quiet⟩

theorem advances_markAnchor (node : ι) (kind : NodeKind) (directive : DirectiveRef)
    (content : Forest (Mark Factory)) :
    Advances keeps lost Stage.progress (setup.markAnchor node kind directive content) := by
  refine (advances_lift (advances_report report rfl)).bind fun _ => ?_
  split
  · exact (advances_edit _).bind fun _ => .pure _
  · exact (advances_edit _).bind fun _ => .pure _

theorem advances_markTree (node : ι) {kind : NodeKind} {below : Forest (ι × NodeKind)}
    (views : ∀ directive source, setup.claims kind = [.component directive source] →
      Advances keeps lost id (viewOf directive source))
    (inner : Advances keeps lost Stage.progress (setup.mark viewOf below)) :
    Advances keeps lost Stage.progress (setup.markTree viewOf node kind below) := by
  unfold markTree
  split
  · exact .pure _
  · exact inner.bind fun _ => .pure _
  next claimed =>
    exact (advances_lift (views _ _ claimed)).bind fun _ => inner.bind fun _ => .pure _
  · exact (advances_edit _).bind fun _ =>
      inner.bind fun content => advances_markAnchor report node kind _ content
  · exact .throw _

theorem advances_mark {forest : Forest (ι × NodeKind)}
    (views : setup.ViewsAdvance keeps lost viewOf (forest.map Prod.snd).preorder) :
    Advances keeps lost Stage.progress (setup.mark viewOf forest) := by
  induction forest with
  | nil => exact .pure _
  | cons entry below rest inner outer =>
      obtain ⟨node, kind⟩ := entry
      obtain ⟨viewsHere, viewsBelow, viewsRest⟩ := Forest.forall_mem_preorder_cons.mp views
      rw [mark_cons]
      exact (advances_markTree report node viewsHere (inner viewsBelow)).bind fun _ =>
        (outer viewsRest).bind fun _ => .pure _

theorem advances_compileForest {forest : Forest NodeKind}
    (views : setup.ViewsAdvance keeps lost viewOf forest.preorder) :
    Advances keeps lost id (setup.compileForest viewOf forest) := by
  intro progress kept
  have same := forest.map_snd_map_pair ()
  have result := advances_mark report (same.symm ▸ views) ⟨progress, []⟩ kept
  rw [compileForest]
  cases run : setup.mark viewOf (forest.map fun kind => ((), kind)) ⟨progress, []⟩ with
  | ok marks stage =>
      rw [run] at result
      obtain ⟨still, components, attempts⟩ := result
      exact ⟨report _ _ still, components ++ [], attempts.trans (.report _ _ rfl)⟩
  | error error stage =>
      rw [run] at result
      exact result

theorem advances_compileMarkup {markup : String}
    (views : ∀ forest events, Markup.parse markup = .ok (forest, events) →
      setup.ViewsAdvance keeps lost viewOf forest.preorder) :
    Advances keeps lost id (setup.compileMarkup viewOf markup) := by
  rw [compileMarkup]
  cases parsed : Markup.parse markup with
  | error error => exact .throw _
  | ok value =>
      exact (advances_report report (Markup.started_of_parse parsed)).bind fun _ =>
        advances_compileForest report (views value.1 value.2 parsed)

end walk

/-- The markup of the component cannot be compiled. -/
def Broken (setup : Setup) (component : Nat) : Prop :=
  ∃ markup, setup.InlineMarkup component markup ∧ ¬setup.Compilable markup

theorem building_enter (work : Work α) (directive : DirectiveRef) (progress : Progress) :
    building directive.index work
        { progress with events := progress.events ++ [.compilingComponent directive] } =
      match work (progress.enter directive) with
      | .ok value last => .ok value { last with building := last.building.tail }
      | .error error last => .error error { last with building := last.building.tail } :=
  rfl

theorem viewOfMarkup_eq (levels : Nat) (directive : DirectiveRef) (markup : String)
    (progress : Progress) :
    setup.viewOfMarkup levels directive markup progress =
      match setup.compileMarkup (setup.viewOf levels) markup (progress.enter directive) with
      | .ok view last => .ok view
          { last with
            building := last.building.tail
            views := (directive.index, view) :: last.views }
      | .error error last => .error error { last with building := last.building.tail } := by
  have reported : Work.report [.compilingComponent directive] progress =
      .ok () { progress with events := progress.events ++ [.compilingComponent directive] } := rfl
  have built := building_enter (setup.compileMarkup (setup.viewOf levels) markup) directive progress
  rw [viewOfMarkup, bind_of_ok reported]
  cases run : setup.compileMarkup (setup.viewOf levels) markup (progress.enter directive) with
  | ok view last =>
      rw [run] at built
      rw [bind_of_ok built]
      rfl
  | error error last =>
      rw [run] at built
      rw [bind_of_error built]

/-- A component that is not kept and not being compiled is started, and lost only if its markup
cannot be compiled. -/
theorem advances_viewOfMarkup (ascending : setup.Ascending) {levels : Nat}
    {directive : DirectiveRef} {markup : String}
    (inline : setup.InlineMarkup directive.index markup)
    (lead : setup.LeadTo within directive.index)
    (meets : Meets (setup.Consistent (directive.index :: within))
      (setup.faults (directive.index :: within) markup)
      (setup.compileMarkup (setup.viewOf levels) markup))
    (advances : Advances (setup.Consistent (directive.index :: within)) setup.Broken id
      (setup.compileMarkup (setup.viewOf levels) markup))
    {progress : Progress} (consistent : setup.Consistent within progress)
    (unkept : directive.index ∉ progress.kept) (idle : directive.index ∉ progress.building) :
    Ends (setup.Consistent within) setup.Broken id progress
      (setup.viewOfMarkup levels directive markup progress) := by
  have entered : setup.Consistent (directive.index :: within) (progress.enter directive) :=
    ⟨congrArg _ consistent.building, consistent.kept⟩
  have inside := advances (progress.enter directive) entered
  have still := (meets_viewOfMarkup ascending inline meets).preserves progress consistent
  rw [viewOfMarkup_eq] at still ⊢
  cases run : setup.compileMarkup (setup.viewOf levels) markup (progress.enter directive) with
  | ok view last =>
      rw [run] at inside still
      obtain ⟨_, components, attempts⟩ := inside
      exact ⟨still, _, attempts.leave unkept idle rfl rfl (List.subset_cons_self _ _)
        (.inl List.mem_cons_self)⟩
  | error error last =>
      rw [run] at inside still
      obtain ⟨_, components, attempts⟩ := inside
      -- Whatever is wrong inside is wrong with the component, since those around it lead to it.
      have broken : setup.Broken directive.index := by
        refine ⟨markup, inline, fun compilable => ?_⟩
        have clean := compilable.faults_eq_nil .source fun _ => lead.cons inline
        have faulty := (meets.error entered run).1
        rw [clean] at faulty
        cases faulty
      exact ⟨still, _, attempts.leave unkept idle rfl rfl (List.Subset.refl _) (.inr broken)⟩

/-- The way to component views advances at every level. -/
theorem advances_viewOf (ascending : setup.Ascending) {levels : Nat}
    (stack : setup.Stack levels within) {kind : NodeKind} {directive : DirectiveRef}
    {source : ComponentSource} (claimed : setup.claims kind = [.component directive source])
    (lead : ∀ markup, source = .inline markup → setup.LeadTo within directive.index) :
    Advances (setup.Consistent within) setup.Broken id (setup.viewOf levels directive source) := by
  induction levels generalizing within kind directive source with
  | zero =>
      obtain ⟨_, impossible⟩ := stack.exists_eq_add_one
      cases impossible
  | succ levels induction =>
      cases source with
      | compiled factory =>
          rw [viewOf]
          exact .pure factory
      | inline inner =>
          have inline := inlineMarkup_of_claims claimed
          intro progress (consistent : setup.Consistent within progress)
          cases looked : progress.views.lookup directive.index with
          | some view =>
              rw [viewOf_of_lookup _ looked]
              exact ⟨consistent, [], .refl _ progress⟩
          | none =>
              cases repeated : progress.building.contains directive.index with
              | true =>
                  rw [viewOf_of_building _ looked repeated]
                  exact ⟨consistent, [], .refl _ progress⟩
              | false =>
                  have fresh := consistent.not_mem repeated
                  have less := stack.cons fresh inline.registered
                  have needed (component : Nat) (uses : setup.Uses inner component) :
                      setup.LeadTo (directive.index :: within) component :=
                    (lead inner rfl).cons inline uses
                  have advances : Advances (setup.Consistent (directive.index :: within))
                      setup.Broken id (setup.compileMarkup (setup.viewOf levels) inner) := by
                    refine advances_compileMarkup (fun _ _ still => still.report _) ?_
                    intro forest events parsed kind member other source claimed
                    refine induction less claimed ?_
                    rintro markup rfl
                    exact needed _ (uses_of_claims parsed member claimed)
                  rw [viewOf_succ _ looked repeated]
                  exact advances_viewOfMarkup ascending inline (lead inner rfl)
                    (meets_compileMarkup_viewOf less needed ascending) advances consistent
                    (Progress.notMem_kept looked) (consistent.building ▸ fresh)

end Setup

end ViewTemplates
