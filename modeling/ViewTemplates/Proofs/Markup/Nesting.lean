import ViewTemplates.Markup.Nesting
import ViewTemplates.Proofs.Forest

/-!
The forest of a markup text. Its nodes come in the order of their tokens, and only elements that
have an end tag have something below them.
-/

namespace ViewTemplates

/-- The nodes that have an end tag. -/
def NodeKind.isOpen : NodeKind → Bool
  | element name _ => !isVoid name
  | _ => false

namespace Markup

/-- The node that a token adds. -/
def Token.kind? : Token → Option NodeKind
  | text value => some (.text value)
  | comment value => some (.comment value)
  | startTag name attributes _ => some (.element name attributes)
  | endTag _ => none

/-- What stands inside and to the left of the open elements is bare, and these have end tags. -/
def Nesting.Bare (nesting : Nesting) : Prop :=
  nesting.inside.Bare NodeKind.isOpen ∧
    ∀ frame ∈ nesting.opened, isVoid frame.name = false ∧ frame.left.Bare NodeKind.isOpen

theorem Nesting.bare_enclose {opened : List Opened} {inside : Forest NodeKind}
    (bare : inside.Bare NodeKind.isOpen)
    (frames : ∀ frame ∈ opened, isVoid frame.name = false ∧ frame.left.Bare NodeKind.isOpen) :
    (enclose opened inside).Bare NodeKind.isOpen := by
  induction opened generalizing inside with
  | nil => exact bare
  | cons frame outer induction =>
      obtain ⟨closable, left⟩ := frames frame List.mem_cons_self
      refine induction ?_ fun later member => frames later (List.mem_cons_of_mem _ member)
      apply left.append
      refine ⟨fun leaf => ?_, bare, trivial⟩
      simp [NodeKind.isOpen, closable] at leaf

namespace Nesting.Bare

variable {nesting : Nesting}

theorem add (bare : nesting.Bare) (kind : NodeKind) : (nesting.add kind).Bare :=
  ⟨bare.1.append (.leaf _ _), bare.2⟩

theorem openElement (bare : nesting.Bare) {name : String} (closable : isVoid name = false)
    (attributes : Attributes) : (nesting.openElement name attributes).Bare := by
  refine ⟨trivial, fun frame member => ?_⟩
  rcases List.mem_cons.mp member with rfl | outer
  · exact ⟨closable, bare.1⟩
  · exact bare.2 frame outer

theorem close (bare : nesting.Bare) (count : Nat) : (nesting.close count).Bare :=
  ⟨bare_enclose bare.1 fun frame member => bare.2 frame (List.mem_of_mem_take member),
    fun frame member => bare.2 frame (List.mem_of_mem_drop member)⟩

theorem consume (bare : nesting.Bare) (placed : Placed) : (nesting.consume placed).1.Bare := by
  unfold Nesting.consume
  cases placed.token with
  | text value => exact bare.add _
  | comment value => exact bare.add _
  | startTag name attributes selfClosing =>
      simp only
      split
      · exact bare.add _
      next closable => exact bare.openElement (Bool.or_eq_false_iff.mp closable).2 _
  | endTag name =>
      simp only
      split
      · exact bare.close _
      · split <;> exact bare

theorem consumeAll (bare : nesting.Bare) (tokens : List Placed) :
    (nesting.consumeAll tokens).1.Bare := by
  induction tokens generalizing nesting with
  | nil => exact bare
  | cons placed rest induction => exact induction (bare.consume placed)

end Nesting.Bare

theorem bare_isOpen_of_parse {source : String} {forest : Forest NodeKind} {events : List Event}
    (parsed : parse source = .ok (forest, events)) : forest.Bare NodeKind.isOpen := by
  rw [parse] at parsed
  split at parsed
  · cases parsed
  next tokens _ =>
    cases parsed
    have empty : Nesting.empty.Bare := ⟨trivial, nofun⟩
    have bare := empty.consumeAll tokens
    exact Nesting.bare_enclose bare.1 bare.2

theorem bare_of_parse {source : String} {forest : Forest NodeKind} {events : List Event}
    (parsed : parse source = .ok (forest, events)) : forest.Bare NodeKind.isElement := by
  apply (bare_isOpen_of_parse parsed).mono
  intro kind leaf
  cases kind with
  | element => contradiction
  | _ => rfl

/-! Only events tell where a token stood. -/

namespace Nesting

def step (nesting : Nesting) (token : Token) : Nesting := (nesting.consume ⟨token, 0⟩).1

def run (nesting : Nesting) (tokens : List Token) : Nesting := tokens.foldl step nesting

@[simp] theorem run_nil (nesting : Nesting) : nesting.run [] = nesting := rfl

@[simp] theorem run_cons (nesting : Nesting) (token : Token) (rest : List Token) :
    nesting.run (token :: rest) = (nesting.step token).run rest := rfl

@[simp] theorem run_append (nesting : Nesting) (first second : List Token) :
    nesting.run (first ++ second) = (nesting.run first).run second := List.foldl_append

theorem fst_consume (nesting : Nesting) (placed : Placed) :
    (nesting.consume placed).1 = nesting.step placed.token := by
  unfold step consume
  cases placed.token with
  | text => rfl
  | comment => rfl
  | startTag => rfl
  | endTag name =>
      simp only
      split
      · rfl
      · split <;> rfl

theorem fst_consumeAll (nesting : Nesting) (tokens : List Placed) :
    (nesting.consumeAll tokens).1 = nesting.run (tokens.map (·.token)) := by
  induction tokens generalizing nesting with
  | nil => rfl
  | cons placed rest induction =>
      rw [consumeAll, List.map_cons, run_cons, ← fst_consume]
      exact induction _

theorem step_of_depthOf? {nesting : Nesting} {name : String} {depth : Nat}
    (found : nesting.depthOf? name = some depth) :
    nesting.step (.endTag name) = nesting.close (depth + 1) := by
  simp only [step, consume, found]

/-- An end tag that matches no open element changes nothing. -/
theorem step_of_depthOf?_eq_none {nesting : Nesting} {name : String}
    (missing : nesting.depthOf? name = none) : nesting.step (.endTag name) = nesting := by
  simp only [step, consume, missing]
  split <;> rfl

/-! The order of the nodes. -/

theorem enclose_append (inner outer : List Opened) (inside : Forest NodeKind) :
    enclose (inner ++ outer) inside = enclose outer (enclose inner inside) := by
  induction inner generalizing inside with
  | nil => rfl
  | cons frame rest induction => exact induction _

/-- What stands inside the innermost open element comes behind everything else. -/
theorem preorder_enclose_append (opened : List Opened) (inside more : Forest NodeKind) :
    (enclose opened (inside ++ more)).preorder =
      (enclose opened inside).preorder ++ more.preorder := by
  induction opened generalizing inside more with
  | nil => exact Forest.preorder_append _ _
  | cons frame outer induction =>
      rw [enclose, enclose, induction, induction]
      simp [Forest.preorder]

/-- The forest so far, were all open elements closed. -/
def built (nesting : Nesting) : Forest NodeKind := enclose nesting.opened nesting.inside

theorem built_close (nesting : Nesting) (count : Nat) :
    (nesting.close count).built = nesting.built := by
  rw [built, built, close, ← enclose_append, List.take_append_drop]

/-- A token adds its node behind all others; an end tag adds none. -/
theorem preorder_step (nesting : Nesting) (token : Token) :
    (nesting.step token).built.preorder = nesting.built.preorder ++ token.kind?.toList := by
  have added (kind : NodeKind) :
      (nesting.add kind).built.preorder = nesting.built.preorder ++ [kind] :=
    preorder_enclose_append nesting.opened nesting.inside (.leaf kind)
  cases token with
  | text value => exact added _
  | comment value => exact added _
  | startTag name attributes selfClosing =>
      unfold step consume
      dsimp only
      split
      · exact added _
      · exact added (.element name attributes)
  | endTag name =>
      rw [Token.kind?, Option.toList_none, List.append_nil]
      cases found : nesting.depthOf? name with
      | none => rw [step_of_depthOf?_eq_none found]
      | some depth => rw [step_of_depthOf? found, built_close]

theorem preorder_run (nesting : Nesting) (tokens : List Token) :
    (nesting.run tokens).built.preorder =
      nesting.built.preorder ++ tokens.filterMap Token.kind? := by
  induction tokens generalizing nesting with
  | nil => exact (List.append_nil _).symm
  | cons token rest induction =>
      rw [run_cons, induction, preorder_step, List.append_assoc]
      cases made : token.kind? <;> simp [made]

end Nesting

theorem fst_nest (tokens : List Placed) :
    (nest tokens).1 = (Nesting.empty.run (tokens.map (·.token))).built := by
  rw [← Nesting.fst_consumeAll]
  rfl

/-- Whatever the tags do, the nodes stand in the order of their tokens. -/
theorem preorder_nest (tokens : List Placed) :
    (nest tokens).1.preorder = tokens.filterMap fun placed => placed.token.kind? := by
  rw [fst_nest, Nesting.preorder_run, List.filterMap_map]
  rfl

end Markup

end ViewTemplates
