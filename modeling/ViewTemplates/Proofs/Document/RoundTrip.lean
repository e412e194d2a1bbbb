import ViewTemplates.Proofs.Document.Operations
import ViewTemplates.Proofs.Markup.Normal
import ViewTemplates.Proofs.Runs

/-!
Documents written as markup and read again. Nodes with a canonical forest come back as they were,
and those of a parsed text come back in normal form.
-/

namespace ViewTemplates.Document

theorem WellFormed.kinds_adopt {doc : Document} (wellFormed : doc.WellFormed)
    {forest : Forest NodeKind} (bare : forest.Bare NodeKind.isContainer) :
    (doc.adopt forest).2.kinds (doc.adopt forest).1 = forest := by
  obtain ⟨-, -, holds, -⟩ := (recorded_graft doc none (.tree .fragment forest)).holds
  have tops : (doc.adopt forest).1 = (forest.numbered (doc.size + 1)).tops := by
    rw [Document.adopt]
    simp only [graft_eq, size_create]
  rw [← adopt_eq] at holds
  rw [tops, kinds, (wellFormed.adopt bare).forest_eq holds, Forest.map_snd_numbered]

theorem WellFormed.exists_of_parse {doc next : Document} (wellFormed : doc.WellFormed)
    {source : String} {nodes : List NodeId} {events : List Event}
    (parsed : doc.parse source = .ok (nodes, next, events)) :
    ∃ forest, Markup.parse source = .ok (forest, events) ∧ next.kinds nodes = forest := by
  rw [Document.parse] at parsed
  split at parsed
  next => contradiction
  next forest found read =>
    have bare := (Markup.bare_of_parse read).mono NodeKind.isElement_of_not_isContainer
    have kinds := wellFormed.kinds_adopt bare
    cases parsed
    exact ⟨forest, read, kinds⟩

/-- A text with a forest gives nodes with that forest, in whatever document. -/
theorem WellFormed.exists_parse {into : Document} (wellFormed : into.WellFormed)
    {source : String} {forest : Forest NodeKind} {events : List Event}
    (read : Markup.parse source = .ok (forest, events)) :
    ∃ roots next, into.parse source = .ok (roots, next, events) ∧ next.kinds roots = forest := by
  have bare := (Markup.bare_of_parse read).mono NodeKind.isElement_of_not_isContainer
  refine ⟨(into.adopt forest).1, (into.adopt forest).2, ?_, wellFormed.kinds_adopt bare⟩
  rw [Document.parse, read]

/-- Parsing the printed form of a canonical forest gives that forest. -/
theorem WellFormed.parse_html {into : Document} (wellFormed : into.WellFormed)
    {forest : Forest NodeKind} (canonical : forest.Canonical) :
    ∃ roots next, into.parse (Markup.html forest) = .ok (roots, next, []) ∧
      next.kinds roots = forest :=
  wellFormed.exists_parse (Markup.parse_html canonical)

/-- Nodes with a canonical forest are written without loss: the markup is read without an event, and
the nodes read have the same kinds, attributes and order of children. -/
theorem parse_html_of_canonical {doc into : Document} (wellFormed : into.WellFormed)
    {nodes : List NodeId} (canonical : (doc.kinds nodes).Canonical) :
    ∃ roots next, into.parse (doc.html nodes) = .ok (roots, next, []) ∧
      next.kinds roots = doc.kinds nodes :=
  wellFormed.parse_html canonical

/-- Elements of one name inside each other, values and texts with delimiters of tags, and a comment
that begins and ends in dashes. -/
def delimiters : Forest NodeKind :=
  .cons (.element "b" [("@x", "<i>'"), ("Data-y", "")])
    (.cons (.element "b" []) (.leaf (.text "1 > 0 \""))
      (.cons (.comment "--a--") .nil (.leaf (.element "BR" [])))) (.leaf (.text "/>"))

theorem parse_html_of_canonical_delimiters :
    let doc := (empty.graft none delimiters).2
    (doc.kinds [0, 5]).Canonical ∧
      ∃ roots next, empty.parse (doc.html [0, 5]) = .ok (roots, next, []) ∧
        next.kinds roots = doc.kinds [0, 5] := by
  intro doc
  have kinds : doc.kinds [0, 5] = delimiters := by decide +kernel
  have canonical : (doc.kinds [0, 5]).Canonical := by
    rw [kinds]
    decide +kernel
  exact ⟨canonical, parse_html_of_canonical .empty canonical⟩

/-- The markup of a parsed text is its normal form: it is read without an event, the nodes read are
those of the text with side-by-side texts joined and double quotes escaped, and they are written as
the same markup again. -/
theorem parse_html_of_parse {doc next into : Document} (wellFormed : doc.WellFormed)
    (target : into.WellFormed) {source : String} {nodes : List NodeId} {events : List Event}
    (parsed : doc.parse source = .ok (nodes, next, events)) :
    ∃ roots last, into.parse (next.html nodes) = .ok (roots, last, []) ∧
      last.kinds roots = (next.kinds nodes).normal ∧ last.html roots = next.html nodes := by
  obtain ⟨forest, read, kinds⟩ := wellFormed.exists_of_parse parsed
  have canonical := Forest.canonical_normal (Markup.lexical_of_parse read)
    (Markup.bare_isOpen_of_parse read)
  obtain ⟨roots, last, again, same⟩ := target.parse_html canonical
  have printed := Markup.html_normal forest
  refine ⟨roots, last, ?_, ?_, ?_⟩
  · rw [html, kinds, ← printed, again]
  · rw [same, kinds]
  · rw [html, same, html, kinds, printed]

/-- Values in quotes and without, names twice, void and closed elements, and end tags that close
nothing or more than their own element. -/
def lenient : String :=
  "<p a=1 A='\"' a=2 />x</q>y<!--->--><BR>z<b><i>w</b><u b>"

theorem parse_html_of_parse_lenient :
    ∃ nodes next events, empty.parse lenient = .ok (nodes, next, events) ∧
      ∃ roots last, empty.parse (next.html nodes) = .ok (roots, last, []) ∧
        last.kinds roots = (next.kinds nodes).normal ∧ last.html roots = next.html nodes := by
  obtain ⟨⟨nodes, next, events⟩, parsed⟩ := exists_of_isOk
    (show (empty.parse lenient).isOk = true by decide +kernel)
  exact ⟨nodes, next, events, parsed, parse_html_of_parse .empty .empty parsed⟩

end ViewTemplates.Document
