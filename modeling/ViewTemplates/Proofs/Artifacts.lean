import ViewTemplates.Proofs.Compiler.InPlace
import ViewTemplates.Proofs.Directive.Matching
import ViewTemplates.Proofs.Document.Termination
import ViewTemplates.Proofs.Factory.Leaves
import ViewTemplates.Proofs.Outlet.Documents

/-!
What can be made from nothing by calls, in any order and also by calls that fail: documents,
compilers and factories. They depend on each other. A document gets nodes from factories and from
other documents, a factory comes out of a compiler and a document, and a compiler may be given
factories. Every document that is made is a forest.
-/

namespace ViewTemplates

inductive Artifact where
  | document (doc : Document)
  | compiler (compiler : Compiler)
  | factory (factory : Factory)

/-- A call that may change a document. The outlet may be any, in particular what earlier calls have
left of it. -/
inductive DocumentCall where
  | create (kind : NodeKind)
  | setAttribute (node : NodeId) (name value : String)
  | removeAttribute (node : NodeId) (name : String)
  | setText (node : NodeId) (value : String)
  | remove (node : NodeId)
  | insertBefore (parent node : NodeId) (reference : Option NodeId)
  | appendChild (parent node : NodeId)
  | replaceChild (parent new old : NodeId)
  | takeChildren (node : NodeId)
  | cloneNode (node : NodeId)
  | importNode (source : Document) (node : NodeId)
  | parse (source : String)
  | compile (compiler : Compiler) (nodes : List NodeId)
  | compileFactory (compiler : Compiler) (nodes : List NodeId)
  | createView (factory : Factory) (id : ViewId)
  | outlet (outlet : Outlet) (call : OutletCall)

/-- What there is after a change that may be refused. -/
def Document.attempt (doc : Document) : Except ε Document → Document
  | .ok next => next
  | .error _ => doc

/-- The document after a call. A move that is refused and markup that cannot be read change nothing;
compilations and insertions into an outlet may fail halfway. -/
def Document.after (doc : Document) : DocumentCall → Document
  | .create kind => doc.create kind
  | .setAttribute node name value => doc.setAttribute node name value
  | .removeAttribute node name => doc.removeAttribute node name
  | .setText node value => doc.setText node value
  | .remove node => doc.remove node
  | .insertBefore parent node reference => doc.attempt (doc.insertBefore parent node reference)
  | .appendChild parent node => doc.attempt (doc.appendChild parent node)
  | .replaceChild parent new old => doc.attempt (doc.replaceChild parent new old)
  | .takeChildren node => doc.takeChildren node
  | .cloneNode node => (doc.cloneNode node).2
  | .importNode source node => (doc.importNode source node).2
  | .parse source =>
      match doc.parse source with
      | .ok (_, next, _) => next
      | .error _ => doc
  | .compile compiler nodes => (compiler.compile doc nodes).2
  | .compileFactory compiler nodes => (compiler.compileFactory doc nodes).2
  | .createView factory id => (factory.createView id doc).2
  | .outlet outlet call => (OutletState.after ⟨doc, outlet⟩ call).doc

/-- The compiler after a compilation, and the factories in what came out of it. -/
def Compilation.artifacts (compilation : Compilation α) (factories : α → List Factory) :
    List Artifact :=
  .compiler compilation.compiler ::
    match compilation.outcome with
    | .ok value => (factories value).map .factory
    | .error _ => []

namespace DocumentCall

/-- The nodes of the document that the call is given. -/
def handles : DocumentCall → List NodeId
  | create _ | importNode _ _ | parse _ | createView _ _ => []
  | setAttribute node _ _ | removeAttribute node _ | setText node _ | remove node
  | takeChildren node | cloneNode node => [node]
  | insertBefore parent node reference => parent :: node :: reference.toList
  | appendChild parent node => [parent, node]
  | replaceChild parent new old => [parent, new, old]
  | compile _ nodes | compileFactory _ nodes => nodes
  | outlet _ call => call.view.nodes

/-- What else the call is given. -/
def ingredients : DocumentCall → List Artifact
  | importNode source _ => [.document source]
  | compile compiler _ | compileFactory compiler _ => [.compiler compiler]
  | createView factory _ => [.factory factory]
  | _ => []

/-- What there is after the call: the document, and what a compilation made. -/
def results (doc : Document) (call : DocumentCall) : List Artifact :=
  .document (doc.after call) ::
    match call with
    | compile compiler nodes =>
        (compiler.compile doc nodes).1.artifacts fun compiled =>
          compiled.binders.flatMap ElementBinder.views
    | compileFactory compiler nodes =>
        (compiler.compileFactory doc nodes).1.artifacts fun factory => [factory]
    | _ => []

end DocumentCall

/-- What can be made from nothing by any sequence of calls. -/
inductive Artifact.Reached : Artifact → Prop where
  | empty : Reached (.document .empty)
  | call {doc : Document} {call : DocumentCall} {artifact : Artifact} :
      Reached (.document doc) → (∀ node ∈ call.handles, node < doc.size) →
      (∀ ingredient ∈ call.ingredients, Reached ingredient) →
      artifact ∈ call.results doc → Reached artifact
  | compiler {registry : Registry} {config : Config} {compiler : Compiler} :
      (∀ directive ∈ registry.directives, ∀ factory,
        directive.kind = .component (.compiled factory) → Reached (.factory factory)) →
      Compiler.withConfig registry config = .ok compiler → Reached (.compiler compiler)
  | compileHtml {compiler : Compiler} {source : String} {artifact : Artifact} :
      Reached (.compiler compiler) →
      artifact ∈ (compiler.compileHtml source).artifacts (fun factory => [factory]) →
      Reached artifact
  | snapshot {doc : Document} {nodes : List NodeId} {binders : List (ElementBinder Factory)} :
      Reached (.document doc) →
      (∀ view ∈ binders.flatMap ElementBinder.views, Reached (.factory view)) →
      Reached (.factory (.mk (doc.kinds nodes) binders))
  | view {factory view : Factory} :
      Reached (.factory factory) → view ∈ factory.binders.flatMap ElementBinder.views →
      Reached (.factory view)
  | template {factory : Factory} :
      Reached (.factory factory) → Reached (.document (Document.empty.adopt factory.template).2)

/-- What every call keeps: documents are well formed, and templates have nothing below leaves. -/
def Artifact.Sound : Artifact → Prop
  | .document doc => doc.WellFormed
  | .compiler value => value.Leafy
  | .factory value => value.Leafy

theorem Compilation.sound_artifacts {compilation : Compilation α} {factories : α → List Factory}
    (after : compilation.compiler.Leafy)
    (outcome : ∀ value, compilation.outcome = .ok value →
      ∀ factory ∈ factories value, factory.Leafy) :
    ∀ artifact ∈ compilation.artifacts factories, artifact.Sound := by
  intro artifact member
  rcases List.mem_cons.mp member with rfl | made
  · exact after
  · split at made
    next value success =>
      obtain ⟨factory, listed, rfl⟩ := List.mem_map.mp made
      exact outcome value success factory listed
    next => cases made

theorem Document.WellFormed.attempt {doc : Document} (wellFormed : doc.WellFormed)
    {result : Except ε Document} (success : ∀ {next}, result = .ok next → next.WellFormed) :
    (doc.attempt result).WellFormed := by
  cases result with
  | ok next => exact success rfl
  | error => exact wellFormed

namespace DocumentCall

section
variable {doc : Document} (wellFormed : doc.WellFormed) {call : DocumentCall}
  (used : ∀ node ∈ call.handles, node < doc.size)
  (sound : ∀ ingredient ∈ call.ingredients, ingredient.Sound)
include wellFormed used sound

theorem wellFormed_after : (doc.after call).WellFormed := by
  cases call with
  | create kind => exact wellFormed.create kind
  | setAttribute node name value => exact wellFormed.setAttribute node name value
  | removeAttribute node name => exact wellFormed.removeAttribute node name
  | setText node value => exact wellFormed.setText node value
  | remove node => exact wellFormed.remove node
  | insertBefore parent node reference =>
      obtain ⟨parentUsed, nodeUsed, _⟩ := by simpa only [handles, List.forall_mem_cons] using used
      exact wellFormed.attempt fun moved => wellFormed.insertBefore nodeUsed parentUsed moved
  | appendChild parent node =>
      obtain ⟨parentUsed, nodeUsed, _⟩ := by simpa only [handles, List.forall_mem_cons] using used
      exact wellFormed.attempt fun moved => wellFormed.insertBefore nodeUsed parentUsed moved
  | replaceChild parent new old =>
      obtain ⟨parentUsed, newUsed, _⟩ := by simpa only [handles, List.forall_mem_cons] using used
      exact wellFormed.attempt fun replaced => wellFormed.replaceChild newUsed parentUsed replaced
  | takeChildren node => exact wellFormed.takeChildren node
  | cloneNode node => exact wellFormed.cloneNode node
  | importNode source node =>
      exact wellFormed.importNode (sound _ (List.mem_singleton_self _)) node
  | parse source =>
      rw [Document.after]
      split
      next parsed => exact wellFormed.parse parsed
      next => exact wellFormed
  | compile compiler nodes => exact Compiler.wellFormed_compile wellFormed used
  | compileFactory compiler nodes => exact Compiler.wellFormed_compileFactory wellFormed used
  | createView factory id =>
      have leafy : factory.Leafy := sound _ (List.mem_singleton_self _)
      exact wellFormed.createView leafy.bare id
  | outlet outlet call => exact OutletCall.wellFormed_after wellFormed call used

/-- One step: what a call is given is sound, so what it makes is sound. -/
theorem sound_results : ∀ artifact ∈ call.results doc, artifact.Sound := by
  intro artifact member
  rcases List.mem_cons.mp member with rfl | made
  · exact wellFormed_after wellFormed used sound
  · cases call with
    | compile compiler nodes =>
        have leafy : compiler.Leafy := sound _ (List.mem_singleton_self _)
        exact Compilation.sound_artifacts (leafy.compile doc nodes)
          (fun _ success => leafy.outcome_compile wellFormed used success) artifact made
    | compileFactory compiler nodes =>
        have leafy : compiler.Leafy := sound _ (List.mem_singleton_self _)
        refine Compilation.sound_artifacts (leafy.compileFactory doc nodes) ?_ artifact made
        intro factory success other listed
        rw [List.mem_singleton.mp listed]
        exact leafy.outcome_compileFactory wellFormed used success
    | _ => cases made

end

end DocumentCall

namespace Artifact

theorem Reached.sound {artifact : Artifact} (reached : Reached artifact) : artifact.Sound := by
  induction reached with
  | empty => exact Document.WellFormed.empty
  | call _ used _ member wellFormed ingredients =>
      exact DocumentCall.sound_results wellFormed used ingredients _ member
  | @compiler registry config compiler _ made given =>
      rw [Compiler.withConfig] at made
      split at made
      · cases made
      cases made
      constructor
      case given =>
        intro index directive factory registered component
        exact given directive (List.mem_of_getElem? registered) factory component
      case kept =>
        intro component view member
        cases member
  | @compileHtml compiler source artifact _ member leafy =>
      refine Compilation.sound_artifacts (leafy.compileHtml source) ?_ artifact member
      intro factory success other listed
      rw [List.mem_singleton.mp listed]
      exact leafy.outcome_compileHtml success
  | snapshot _ _ wellFormed views => exact .intro (wellFormed.bare_kinds _) views
  | view _ member leafy => exact leafy.view member
  | template _ leafy => exact Document.WellFormed.empty.adopt leafy.bare

theorem Reached.after {doc : Document} (reached : Reached (.document doc)) (call : DocumentCall)
    (used : ∀ node ∈ call.handles, node < doc.size)
    (ingredients : ∀ ingredient ∈ call.ingredients, Reached ingredient) :
    Reached (.document (doc.after call)) :=
  .call reached used ingredients List.mem_cons_self

end Artifact

/-- Whatever calls a document has seen, its parents and child lists agree, and it is a forest. -/
theorem Document.tree_of_reached {doc : Document} (reached : Artifact.Reached (.document doc)) :
    doc.Tree :=
  Document.WellFormed.tree reached.sound

/-! A text below a fragment, an element put in front of it, a refused move, a view in an outlet at
the text, and a compilation of it all. -/

namespace Document

def label : Factory := .mk ((Document.empty.create (.text "b")).kinds [0]) []

def draftCalls : List DocumentCall :=
  [.create .fragment, .create (.text "a"), .appendChild 0 1,
    .create (.element "p" [("if", "")]), .insertBefore 0 2 (some 1), .appendChild 1 0,
    .createView label 0, .outlet ⟨1, [], none, none⟩ (.append ⟨0, [3], []⟩),
    .compile (.new Compiler.conditionals) [2, 3, 1]]

def draft : Document := draftCalls.foldl Document.after .empty

theorem reached_label : Artifact.Reached (.factory label) :=
  .snapshot (.after .empty (.create (.text "b")) nofun nofun) nofun

theorem reached_conditionals :
    Artifact.Reached (.compiler (.new Compiler.conditionals)) := by
  have registered : Compiler.conditionals.directives = [⟨"If", "[if]", .template⟩] :=
    Registry.directives_adding (by decide +kernel)
  refine .compiler ?_ (Compiler.withConfig_default _)
  intro directive member factory component
  rw [registered, List.mem_singleton] at member
  rw [member] at component
  cases component

theorem tree_of_reached_draft : Artifact.Reached (.document draft) ∧ draft.Tree := by
  have created := Artifact.Reached.empty.after (.create .fragment) nofun nofun
  have texted := created.after (.create (.text "a")) nofun nofun
  have appended := texted.after (.appendChild 0 1) (by decide) nofun
  have further := appended.after (.create (.element "p" [("if", "")])) nofun nofun
  have inserted := further.after (.insertBefore 0 2 (some 1)) (by decide) nofun
  have refused := inserted.after (.appendChild 1 0) (by decide) nofun
  have viewed := refused.after (.createView label 0) nofun
    (List.forall_mem_singleton.mpr reached_label)
  have shown := viewed.after (.outlet ⟨1, [], none, none⟩ (.append ⟨0, [3], []⟩)) (by decide) nofun
  have reached := shown.after (.compile (.new Compiler.conditionals) [2, 3, 1]) (by decide)
    (List.forall_mem_singleton.mpr reached_conditionals)
  exact ⟨reached, tree_of_reached reached⟩

example : draft.children 0 = [2, 3, 1] ∧ draft.children 2 = [4] := by decide +kernel

end Document

end ViewTemplates
