import ViewTemplates.Proofs.Markup.Rereading

/-!
Canonical forests: what is written as markup and read again without loss. Reading a printed forest
gives the tokens of its nodes, and nesting these gives the forest.
-/

namespace ViewTemplates

namespace NodeKind

def isText : NodeKind → Bool
  | text _ => true
  | _ => false

def Quotable : NodeKind → Prop
  | element _ attributes => attributes.Quotable
  | _ => True

instance : DecidablePred Quotable
  | .element _ attributes =>
      inferInstanceAs (Decidable (∀ entry ∈ attributes, '"' ∉ entry.2.toList))
  | .fragment | .text _ | .comment _ => inferInstanceAs (Decidable True)

end NodeKind

namespace Forest

def startsWithText (forest : Forest NodeKind) : Bool := forest.roots.head?.any NodeKind.isText

/-- No text stands right behind another one. -/
def Separated : Forest NodeKind → Prop
  | .nil => True
  | .cons kind below rest =>
      (kind.isText = true → rest.startsWithText = false) ∧ below.Separated ∧ rest.Separated

instance decidableSeparated : DecidablePred Separated
  | .nil => inferInstanceAs (Decidable True)
  | .cons kind below rest =>
      let _ := decidableSeparated below
      let _ := decidableSeparated rest
      inferInstanceAs (Decidable ((kind.isText = true → rest.startsWithText = false) ∧
        below.Separated ∧ rest.Separated))

/-- Names and texts as tokens have them, values without double quotes, texts apart, and void
elements, texts and comments without content. -/
structure Canonical (forest : Forest NodeKind) : Prop where
  lexical : ∀ kind ∈ forest.preorder, kind.Lexical
  quotable : ∀ kind ∈ forest.preorder, kind.Quotable
  separated : forest.Separated
  bare : forest.Bare NodeKind.isOpen

instance (forest : Forest NodeKind) : Decidable forest.Canonical :=
  decidable_of_iff ((∀ kind ∈ forest.preorder, kind.Lexical) ∧
      (∀ kind ∈ forest.preorder, kind.Quotable) ∧ forest.Separated ∧ forest.Bare NodeKind.isOpen)
    ⟨fun all => ⟨all.1, all.2.1, all.2.2.1, all.2.2.2⟩,
      fun canonical =>
        ⟨canonical.lexical, canonical.quotable, canonical.separated, canonical.bare⟩⟩

theorem canonical_nil : Canonical .nil := ⟨nofun, nofun, trivial, trivial⟩

theorem canonical_cons {kind : NodeKind} {below rest : Forest NodeKind} :
    (Forest.cons kind below rest).Canonical ↔
      kind.Lexical ∧ kind.Quotable ∧ (kind.isText = true → rest.startsWithText = false) ∧
        (kind.isOpen = false → below = .nil) ∧ below.Canonical ∧ rest.Canonical := by
  constructor
  · rintro ⟨lexical, quotable, ⟨apart, belowApart, restApart⟩, leaf, belowBare, restBare⟩
    rw [forall_mem_preorder_cons] at lexical quotable
    exact ⟨lexical.1, quotable.1, apart, leaf,
      ⟨lexical.2.1, quotable.2.1, belowApart, belowBare⟩,
      ⟨lexical.2.2, quotable.2.2, restApart, restBare⟩⟩
  · rintro ⟨lexical, quotable, apart, leaf, ofBelow, ofRest⟩
    exact ⟨forall_mem_preorder_cons.mpr ⟨lexical, ofBelow.lexical, ofRest.lexical⟩,
      forall_mem_preorder_cons.mpr ⟨quotable, ofBelow.quotable, ofRest.quotable⟩,
      ⟨apart, ofBelow.separated, ofRest.separated⟩, leaf, ofBelow.bare, ofRest.bare⟩

end Forest

namespace Markup

/-- The tokens of a node, those of its content in their place. -/
def tokensAround (kind : NodeKind) (inside : List Token) : List Token :=
  match kind with
  | .fragment => inside
  | .element name attributes =>
      .startTag name attributes false ::
        match isVoid name with
        | true => []
        | false => inside ++ [.endTag name]
  | .text value => [.text value]
  | .comment value => [.comment value]

def tokensOf : Forest NodeKind → List Token
  | .nil => []
  | .cons kind below rest => tokensAround kind (tokensOf below) ++ tokensOf rest

/-- What follows a text in a canonical forest ends it. -/
theorem endsText_print {forest : Forest NodeKind} (canonical : forest.Canonical)
    (plain : forest.startsWithText = false) {rest : List Char} (stop : EndsText rest) :
    EndsText (print forest ++ rest) := by
  cases forest with
  | nil => exact stop
  | cons kind below others =>
      cases kind with
      | fragment => exact (Forest.canonical_cons.mp canonical).1.elim
      | element => rfl
      | text => contradiction
      | comment => rfl

/-- A printed forest is read as the tokens of its nodes, if what stands behind it ends a text. -/
theorem reads_print {forest : Forest NodeKind} (canonical : forest.Canonical) {rest : List Char}
    (stop : EndsText rest) : Reads (print forest ++ rest) (tokensOf forest) rest := by
  induction forest generalizing rest with
  | nil => exact .nil rest
  | cons kind below others inner outer =>
      obtain ⟨lexical, quotable, texts, leaf, belowCanonical, othersCanonical⟩ :=
        Forest.canonical_cons.mp canonical
      have behind := outer othersCanonical stop
      cases kind with
      | fragment => exact lexical.elim
      | element name attributes =>
          have start (rest : List Char) := read_startTag lexical.1 lexical.2 quotable rest
          cases void : isVoid name with
          | true =>
              have all : print (.cons (.element name attributes) below others) ++ rest =
                  '<' :: name.toList ++ printAttributes attributes ++
                    '>' :: (print others ++ rest) := by
                simp [print, void]
              rw [all, tokensOf, tokensAround, void]
              exact .cons (by simp) (start _) behind
          | false =>
              have all : print (.cons (.element name attributes) below others) ++ rest =
                  '<' :: name.toList ++ printAttributes attributes ++
                    '>' :: (print below ++
                      '<' :: '/' :: (name.toList ++ '>' :: (print others ++ rest))) := by
                simp [print, void]
              have closed : Reads ('<' :: '/' :: (name.toList ++ '>' :: (print others ++ rest)))
                  (.endTag name :: tokensOf others) rest :=
                .cons (by simp) (read_endTag lexical.1 _) behind
              have tokens : tokensOf (.cons (.element name attributes) below others) =
                  .startTag name attributes false ::
                    (tokensOf below ++ .endTag name :: tokensOf others) := by
                simp [tokensOf, tokensAround, void]
              rw [all, tokens]
              have content : Reads (print below ++
                  '<' :: '/' :: (name.toList ++ '>' :: (print others ++ rest))) (tokensOf below)
                  ('<' :: '/' :: (name.toList ++ '>' :: (print others ++ rest))) :=
                inner belowCanonical rfl
              exact .cons (by simp) (start _) (content.append closed)
      | text value =>
          have read := read_text lexical.1 lexical.2
            (endsText_print othersCanonical (texts rfl) stop)
          rw [print, List.append_assoc]
          exact .cons (by simp [lexical.1]) read behind
      | comment value =>
          have read := read_comment lexical (print others ++ rest)
          have all : print (.cons (.comment value) below others) ++ rest =
              '<' :: '!' :: '-' :: '-' ::
                (value.toList ++ (Text.commentEnd ++ (print others ++ rest))) := by
            simp [print, Text.commentEnd]
          rw [all]
          exact .cons (by simp) read behind

namespace Nesting

theorem consumeAll_append (nesting : Nesting) (first second : List Placed) :
    nesting.consumeAll (first ++ second) =
      let (next, events) := nesting.consumeAll first
      let (last, later) := next.consumeAll second
      (last, events ++ later) := by
  induction first generalizing nesting with
  | nil => simp [consumeAll]
  | cons placed rest induction => simp [consumeAll, induction]

theorem consume_startTag (nesting : Nesting) {placed : Placed} {name : String}
    {attributes : Attributes} (token : placed.token = .startTag name attributes false)
    (void : isVoid name = false) :
    nesting.consume placed = (nesting.openElement name attributes, []) := by
  simp only [consume, token, void, Bool.or_self]

@[simp] theorem depthOf?_innermost (frame : Opened) (outer : List Opened)
    (inside : Forest NodeKind) :
    (mk (frame :: outer) inside).depthOf? frame.name = some 0 := by
  simp [depthOf?, List.findIdx?_cons]

/-- The end tag of the innermost open element closes it alone. -/
theorem consume_endTag {opened : List Opened} {inside : Forest NodeKind} {frame : Opened}
    {placed : Placed} (token : placed.token = .endTag frame.name) :
    (mk (frame :: opened) inside).consume placed =
      (⟨opened, frame.left ++ .tree (.element frame.name frame.attributes) inside⟩, []) := by
  simp [consume, token, close, enclose]

/-- The tokens of a canonical forest put it behind what stands inside the innermost open element.
Each end tag closes its own element, as all those opened inside are closed before. -/
theorem consumeAll_tokensOf {forest : Forest NodeKind} (canonical : forest.Canonical)
    (nesting : Nesting) {placed : List Placed} (same : placed.map (·.token) = tokensOf forest) :
    nesting.consumeAll placed = ({ nesting with inside := nesting.inside ++ forest }, []) := by
  induction forest generalizing nesting placed with
  | nil =>
      rw [List.map_eq_nil_iff.mp same]
      simp [consumeAll]
  | cons kind below others inner outer =>
      obtain ⟨lexical, quotable, texts, leaf, belowCanonical, othersCanonical⟩ :=
        Forest.canonical_cons.mp canonical
      obtain ⟨front, back, rfl, head, later⟩ := List.map_eq_append_iff.mp same
      have added : nesting.consumeAll front =
          ({ nesting with inside := nesting.inside ++ .tree kind below }, []) := by
        cases kind with
        | fragment => exact lexical.elim
        | element name attributes =>
            cases void : isVoid name with
            | true =>
                rw [tokensAround, void] at head
                obtain ⟨start, rfl, token⟩ := List.map_eq_singleton_iff.mp head
                obtain rfl := leaf (by simp [NodeKind.isOpen, void])
                simp [consumeAll, consume, token, void, add]
            | false =>
                rw [tokensAround, void] at head
                obtain ⟨start, _, rfl, token, head⟩ := List.map_eq_cons_iff.mp head
                obtain ⟨content, last, rfl, inside, head⟩ := List.map_eq_append_iff.mp head
                obtain ⟨stop, rfl, closing⟩ := List.map_eq_singleton_iff.mp head
                have filled := inner belowCanonical (nesting.openElement name attributes) inside
                rw [consumeAll, consume_startTag nesting token void]
                simp only [consumeAll_append, filled, consumeAll]
                rw [openElement, consume_endTag closing]
                simp
        | text value =>
            obtain ⟨only, rfl, token⟩ := List.map_eq_singleton_iff.mp head
            obtain rfl := leaf rfl
            simp [consumeAll, consume, token, add]
        | comment value =>
            obtain ⟨only, rfl, token⟩ := List.map_eq_singleton_iff.mp head
            obtain rfl := leaf rfl
            simp [consumeAll, consume, token, add]
      rw [consumeAll_append, added]
      simp only [outer othersCanonical _ later, Forest.append_assoc, Forest.tree_append]
      rfl

end Nesting

/-- Parsing undoes printing. -/
theorem parse_html {forest : Forest NodeKind} (canonical : forest.Canonical) :
    parse (html forest) = .ok (forest, []) := by
  have reads := reads_print canonical (show EndsText [] from trivial)
  rw [List.append_nil] at reads
  obtain ⟨placed, run, same⟩ := reads.tokensFrom 0
  simp only [parse, tokenize, html, String.toList_ofList, run, nest,
    Nesting.consumeAll_tokensOf canonical _ same]
  simp [Nesting.finish, Nesting.empty, Nesting.enclose]

end Markup

end ViewTemplates
