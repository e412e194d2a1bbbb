import ViewTemplates.Proofs.Markup.Canonical

/-!
Normal forms: texts that stand side by side are one text, and double quotes in attribute values are
character references. A forest and its normal form are printed alike, and that of a parsed text is
canonical.
-/

namespace ViewTemplates

def escapeQuotes (value : String) : String :=
  String.ofList (value.toList.flatMap fun c => if c = '"' then "&quot;".toList else [c])

theorem notMem_escapeQuotes (value : String) : '"' ∉ (escapeQuotes value).toList := by
  rw [escapeQuotes, String.toList_ofList]
  intro quoted
  obtain ⟨c, _, inside⟩ := List.mem_flatMap.mp quoted
  split at inside
  next => simp at inside
  next other => exact other (List.mem_singleton.mp inside).symm

namespace NodeKind

def escaped : NodeKind → NodeKind
  | element name attributes =>
      element name (attributes.map fun entry => (entry.1, escapeQuotes entry.2))
  | kind => kind

theorem isOpen_escaped (kind : NodeKind) : kind.escaped.isOpen = kind.isOpen := by
  cases kind <;> rfl

theorem quotable_escaped (kind : NodeKind) : kind.escaped.Quotable := by
  cases kind with
  | element name attributes =>
      intro entry member
      obtain ⟨earlier, _, rfl⟩ := List.mem_map.mp member
      exact notMem_escapeQuotes earlier.2
  | _ => trivial

theorem Lexical.escaped {kind : NodeKind} (lexical : kind.Lexical) : kind.escaped.Lexical := by
  cases kind with
  | element name attributes =>
      refine ⟨lexical.1, fun entry member => ?_, ?_⟩
      · obtain ⟨earlier, among, rfl⟩ := List.mem_map.mp member
        exact lexical.2.names earlier among
      · rw [List.map_map]
        exact lexical.2.distinct
  | _ => exact lexical

end NodeKind

namespace Forest

/-- Put a tree in front of a row; a text joins the text that begins the row. -/
def attach (kind : NodeKind) (below rest : Forest NodeKind) : Forest NodeKind :=
  match kind, rest with
  | .text value, .cons (.text later) _ others => .cons (.text (value ++ later)) below others
  | _, _ => .cons kind below rest

def normal : Forest NodeKind → Forest NodeKind
  | .nil => .nil
  | .cons kind below rest => attach kind.escaped below.normal rest.normal

/-- A tree is put in front of a row as it is, or is a text that joins the first one of the row. -/
theorem attach_cases (kind : NodeKind) (below rest : Forest NodeKind) :
    (attach kind below rest = .cons kind below rest ∧
        (kind.isText = true → rest.startsWithText = false)) ∨
      ∃ value later lost others, kind = .text value ∧ rest = .cons (.text later) lost others ∧
        attach kind below rest = .cons (.text (value ++ later)) below others := by
  cases kind with
  | text value =>
      cases rest with
      | nil => exact .inl ⟨rfl, fun _ => rfl⟩
      | cons first content others =>
          cases first with
          | text later => exact .inr ⟨value, later, content, others, rfl, rfl, rfl⟩
          | _ => exact .inl ⟨rfl, fun _ => rfl⟩
  | _ => exact .inl ⟨rfl, nofun⟩

theorem canonical_attach {kind : NodeKind} {below rest : Forest NodeKind}
    (lexical : kind.Lexical) (quotable : kind.Quotable) (leaf : kind.isOpen = false → below = .nil)
    (belowCanonical : below.Canonical) (restCanonical : rest.Canonical) :
    (attach kind below rest).Canonical := by
  rcases attach_cases kind below rest with ⟨put, apart⟩ | ⟨value, later, _, _, rfl, rfl, put⟩
  · rw [put]
    exact canonical_cons.mpr
      ⟨lexical, quotable, apart, leaf, belowCanonical, restCanonical⟩
  · obtain ⟨laterLexical, _, apart, _, _, othersCanonical⟩ := canonical_cons.mp restCanonical
    rw [put]
    refine canonical_cons.mpr
      ⟨⟨?_, ?_⟩, trivial, apart, leaf, belowCanonical, othersCanonical⟩
    · simp [lexical.1]
    · simp [lexical.2, laterLexical.2]

theorem canonical_normal {forest : Forest NodeKind}
    (lexical : ∀ kind ∈ forest.preorder, kind.Lexical) (bare : forest.Bare NodeKind.isOpen) :
    forest.normal.Canonical := by
  induction forest with
  | nil => exact canonical_nil
  | cons kind below rest inner outer =>
      obtain ⟨ofKind, ofBelow, ofRest⟩ := forall_mem_preorder_cons.mp lexical
      obtain ⟨leaf, belowBare, restBare⟩ := bare
      refine canonical_attach ofKind.escaped kind.quotable_escaped (fun closed => ?_)
        (inner ofBelow belowBare) (outer ofRest restBare)
      rw [kind.isOpen_escaped] at closed
      rw [leaf closed]
      rfl

/-! Texts side by side. -/

/-- The forest with texts that stand side by side joined. -/
def joined : Forest NodeKind → Forest NodeKind
  | .nil => .nil
  | .cons kind below rest => attach kind below.joined rest.joined

theorem attach_of_apart {kind : NodeKind} {rest : Forest NodeKind}
    (apart : kind.isText = true → rest.startsWithText = false) (below : Forest NodeKind) :
    attach kind below rest = .cons kind below rest := by
  rcases attach_cases kind below rest with ⟨put, -⟩ | ⟨_, _, _, _, rfl, rfl, -⟩
  · exact put
  · cases apart rfl

/-- A node that is no text ends the texts before it. -/
theorem joined_append_cons {kind : NodeKind} (plain : kind.isText = false)
    (forest below rest : Forest NodeKind) :
    (forest ++ .cons kind below rest).joined =
      forest.joined ++ .cons kind below.joined rest.joined := by
  have starts (below rest : Forest NodeKind) : (cons kind below rest).startsWithText = false := by
    rw [startsWithText, roots, List.head?_cons, Option.any_some, plain]
  have ends (value : NodeKind) (first others : Forest NodeKind) :
      attach value first (others ++ .cons kind below.joined rest.joined) =
        attach value first others ++ .cons kind below.joined rest.joined := by
    cases others with
    | nil =>
        rw [nil_append, attach_of_apart (fun _ => starts _ _), attach_of_apart fun _ => rfl]
        rfl
    | cons next _ _ => cases value <;> cases next <;> rfl
  induction forest with
  | nil =>
      refine attach_of_apart (fun text => ?_) _
      rw [plain] at text
      cases text
  | cons value first others _ induction => rw [cons_append, joined, induction, ends, joined]

/-- Two texts in a row are joined to the text of both. -/
theorem joined_cons_text (earlier later : String) (rest : Forest NodeKind) :
    (cons (.text earlier) .nil (.cons (.text later) .nil rest)).joined =
      (cons (.text (earlier ++ later)) .nil rest).joined := by
  simp only [joined]
  cases rest.joined with
  | nil => rfl
  | cons kind below others =>
      cases kind with
      | text last => simp [attach, String.append_assoc]
      | _ => rfl

end Forest

namespace Markup

theorem toList_escapeQuotes (value : String) :
    (escapeQuotes value).toList = printValue value.toList := by
  rw [escapeQuotes, String.toList_ofList]
  induction value.toList with
  | nil => rfl
  | cons c rest induction => rw [printValue, List.flatMap_cons, induction]

theorem printAttributes_escaped (attributes : Attributes) :
    printAttributes (attributes.map fun entry => (entry.1, escapeQuotes entry.2)) =
      printAttributes attributes := by
  induction attributes with
  | nil => rfl
  | cons entry rest induction =>
      rw [List.map_cons, printAttributes, printAttributes, induction,
        printValue_of_notMem (notMem_escapeQuotes entry.2), toList_escapeQuotes]

theorem print_attach (kind : NodeKind) (below rest : Forest NodeKind) :
    print (.attach kind below rest) = print (.cons kind below rest) := by
  unfold Forest.attach
  split
  · simp [print]
  · rfl

theorem print_normal (forest : Forest NodeKind) : print forest.normal = print forest := by
  induction forest with
  | nil => rfl
  | cons kind below rest inner outer =>
      rw [Forest.normal, print_attach]
      cases kind with
      | element name attributes =>
          simp only [NodeKind.escaped, print, printAttributes_escaped, inner, outer]
      | _ => simp only [NodeKind.escaped, print, inner, outer]

theorem html_normal (forest : Forest NodeKind) : html forest.normal = html forest := by
  rw [html, html, print_normal]

end Markup

end ViewTemplates
