import ViewTemplates.Document.Building
import ViewTemplates.Proofs.Document.Operations
import ViewTemplates.Proofs.Markup.Tokenizing

/-!
A document built token by token is the one that gets the whole forest at once. An append touches one
record, and the record of an open element lies between what is already complete and what is inside.
-/

namespace ViewTemplates

open Markup

theorem Forest.numbered_append (first : Nat) (left right : Forest α) :
    (left ++ right).numbered first =
      left.numbered first ++ right.numbered (first + left.preorder.length) := by
  induction left generalizing first with
  | nil => rfl
  | cons value below rest _ induction =>
      have place : first + 1 + below.preorder.length + rest.preorder.length =
          first + (cons value below rest).preorder.length := by
        rw [preorder, List.length_cons, List.length_append]
        omega
      rw [cons_append, numbered, numbered, cons_append, induction, place]

theorem Attributes.set_of_notMem {attributes : Attributes} {name : String}
    (new : name ∉ attributes.map Prod.fst) (value : String) :
    attributes.set name value = attributes ++ [(name, value)] := by
  induction attributes with
  | nil => rfl
  | cons entry rest induction =>
      rw [List.map_cons, List.mem_cons, not_or] at new
      rw [Attributes.set, if_neg (by simpa using Ne.symm new.1), induction new.2, List.cons_append]

namespace Markup.Nesting

/-- The number of the innermost open element, where the forest stands below the root. -/
def container (root : Nat) : List Opened → Nat
  | [] => root
  | frame :: outer => container root outer + 1 + frame.left.preorder.length

/-- The open elements with their numbers. -/
def numbers (root : Nat) : List Opened → List (NodeId × String)
  | [] => []
  | frame :: outer => (container root (frame :: outer), frame.name) :: numbers root outer

theorem map_snd_numbers (root : Nat) (opened : List Opened) :
    (numbers root opened).map Prod.snd = opened.map (·.name) := by
  induction opened with
  | nil => rfl
  | cons frame outer induction => rw [numbers, List.map_cons, List.map_cons, induction]

theorem drop_numbers (root count : Nat) (opened : List Opened) :
    (numbers root opened).drop count = numbers root (opened.drop count) := by
  induction opened generalizing count with
  | nil => rw [List.drop_nil, numbers, List.drop_nil]
  | cons frame outer induction =>
      cases count with
      | zero => rfl
      | succ count => rw [numbers, List.drop_succ_cons, List.drop_succ_cons, induction]

theorem length_preorder_enclose (root : Nat) (opened : List Opened) (inside : Forest NodeKind) :
    root + (enclose opened inside).preorder.length =
      container root opened + inside.preorder.length := by
  induction opened generalizing inside with
  | nil => rfl
  | cons frame outer induction =>
      rw [enclose, induction, Forest.preorder_append, List.length_append, container]
      simp only [Forest.preorder, List.append_nil, List.length_cons]
      omega

end Markup.Nesting

namespace Document

theorem recordsOf_append (parent : Option NodeId) (first second : Forest (NodeId × NodeKind)) :
    recordsOf parent (first ++ second) = recordsOf parent first ++ recordsOf parent second := by
  induction first with
  | nil => rfl
  | cons entry below rest _ induction =>
      rw [Forest.cons_append, recordsOf, recordsOf, induction, List.cons_append, List.append_assoc]

/-- The records of a forest below a new fragment. -/
def treeRecords (root : NodeId) (forest : Forest NodeKind) : List NodeRecord :=
  recordsOf none ((Forest.tree .fragment forest).numbered root)

theorem treeRecords_eq (root : NodeId) (forest : Forest NodeKind) : treeRecords root forest =
    ⟨.fragment, none, (forest.numbered (root + 1)).tops⟩ ::
      recordsOf (some root) (forest.numbered (root + 1)) := by
  rw [treeRecords, Forest.numbered, Forest.numbered, recordsOf, recordsOf, List.append_nil]

/-- What stands inside the innermost open element comes last, and apart from it only the record of
that element depends on it. The induction is on the open elements, where what stands inside an outer
one ends with the next. -/
theorem exists_treeRecords (root : Nat) (opened : List Opened) :
    ∃ front kind parent, kind.isContainer = true ∧
      root + front.length = Nesting.container root opened ∧
      ∀ inside, treeRecords root (Nesting.enclose opened inside) =
        front ++ ⟨kind, parent, (inside.numbered (Nesting.container root opened + 1)).tops⟩ ::
          recordsOf (some (Nesting.container root opened))
            (inside.numbered (Nesting.container root opened + 1)) := by
  induction opened with
  | nil => exact ⟨[], .fragment, none, rfl, rfl, treeRecords_eq root⟩
  | cons frame outer induction =>
      obtain ⟨front, kind, parent, -, place, records⟩ := induction
      let upper := Nesting.container root outer
      let left := frame.left.numbered (upper + 1)
      refine ⟨front ++ ⟨kind, parent, left.tops ++ [Nesting.container root (frame :: outer)]⟩ ::
        recordsOf (some upper) left, .element frame.name frame.attributes, some upper, rfl, ?_,
        fun inside => ?_⟩
      · rw [List.length_append, List.length_cons, length_recordsOf, Forest.length_numbered,
          Nesting.container, ← place]
        omega
      · rw [Nesting.enclose, records, Forest.numbered_append, Forest.tops_append, recordsOf_append]
        simp [Forest.numbered, recordsOf, Nesting.container, left, upper, Forest.tops, Forest.roots]

theorem adopt_mk (doc : Document) (forest : Forest NodeKind) :
    (doc.adopt forest).2 = mk (doc.records.toList ++ treeRecords doc.size forest).toArray := by
  rw [adopt_eq, graft_eq, treeRecords]

theorem size_adopt (doc : Document) (forest : Forest NodeKind) :
    (doc.adopt forest).2.size = doc.size + 1 + forest.preorder.length := by
  rw [adopt_eq, size_graft, Forest.preorder, Forest.preorder, List.append_nil, List.length_cons]
  omega

theorem size_adopt_enclose (doc : Document) (opened : List Opened) (inside : Forest NodeKind) :
    (doc.adopt (Nesting.enclose opened inside)).2.size =
      Nesting.container doc.size opened + 1 + inside.preorder.length := by
  have length := Nesting.length_preorder_enclose doc.size opened inside
  rw [size_adopt]
  omega

/-- Above the new nodes there are only new nodes, so one that is not there yet is not above them. -/
theorem isAncestorOf_create_adopt (doc : Document) (forest : Forest NodeKind) (kind : NodeKind)
    {node : NodeId} (fresh : doc.size ≤ node) (used : node < (doc.adopt forest).2.size) :
    ((doc.adopt forest).2.create kind).isAncestorOf (doc.adopt forest).2.size node = false := by
  have inside (limit : Nat) : ∀ node, doc.size ≤ node → node < (doc.adopt forest).2.size →
      ∀ upper ∈ ((doc.adopt forest).2.create kind).lineageWithin limit node,
        upper < (doc.adopt forest).2.size := by
    induction limit with
    | zero => exact fun _ _ _ => nofun
    | succ limit induction =>
        intro node fresh used upper member
        rcases List.mem_cons.mp member with rfl | higher
        · exact used
        · rw [parent?_create] at higher
          rw [adopt_eq] at higher used induction ⊢
          rcases parent_of_fresh _ fresh used with top | ⟨parent, above, lower, attached, -⟩
          · simp only [top, List.not_mem_nil] at higher
          · simp only [attached] at higher
            exact induction parent above (Nat.lt_trans lower used) upper higher
  rw [isAncestorOf, Bool.eq_false_iff, Ne, List.contains_iff_mem]
  exact fun member => Nat.lt_irrefl _ (inside _ node fresh used _ member)

/-- A node that was created last becomes the last child of another one. -/
theorem appendChild_mk {front back : List NodeRecord} {record : NodeRecord} {kind : NodeKind}
    {created : Document} {node : NodeId}
    (whole : created = mk (front ++ record :: (back ++ [NodeRecord.mk kind none []])).toArray)
    (place : node = (front ++ record :: back).length)
    (container : record.kind.isContainer = true)
    (apart : created.isAncestorOf node front.length = false) :
    created.appendChild front.length node =
      .ok (mk (front ++ { record with children := record.children ++ [node] } ::
        (back ++ [NodeRecord.mk kind (some front.length) []])).toArray) := by
  have upper : created.records[front.length]? = some record := by simp [whole]
  have last : created.records[node]? = some ⟨kind, none, []⟩ := by
    have behind : front ++ record :: (back ++ [NodeRecord.mk kind none []]) =
        (front ++ record :: back) ++ [NodeRecord.mk kind none []] := by simp
    rw [whole, place, behind, List.getElem?_toArray, List.getElem?_concat_length]
  have ofKind : (created.kind front.length).isContainer = true := by rwa [Document.kind, upper]
  have row : created.children front.length = record.children := by rw [children, upper]
  have detached : created.remove node = created := by
    rw [remove, parent?, last]
    rfl
  rw [appendChild, Document.insertBefore, ofKind, apart]
  simp only [Bool.true_eq_false, if_false, Bool.false_eq_true, detached, row, reduceCtorEq,
    Option.any_none, Document.place]
  rw [whole, setChildren_append]
  generalize { record with children := record.children ++ [node] } = changed
  have behind (last : NodeRecord) :
      front ++ changed :: (back ++ [last]) = (front ++ changed :: back) ++ [last] := by simp
  have same : node = (front ++ changed :: back).length := by simp [place]
  rw [behind, behind, same, setParent, List.modify_toArray, modify_length]

/-- A node appended to the innermost open element stands last in the forest. -/
theorem appendChild_adopt (doc : Document) (opened : List Opened) (inside : Forest NodeKind)
    (kind : NodeKind) :
    let upper := Nesting.container doc.size opened
    let grown := (doc.adopt (Nesting.enclose opened inside)).2
    (grown.create kind).appendChild upper grown.size =
      .ok (doc.adopt (Nesting.enclose opened (inside ++ .leaf kind))).2 := by
  intro upper grown
  obtain ⟨front, ofKind, parent, container, place, records⟩ := exists_treeRecords doc.size opened
  let row := inside.numbered (upper + 1)
  let back := recordsOf (some upper) row
  have before : grown = mk (doc.records.toList ++ front ++ ⟨ofKind, parent, row.tops⟩ ::
      back).toArray := by
    rw [List.append_assoc, ← records, ← adopt_mk]
  have length : (doc.records.toList ++ front).length = upper := by
    rw [List.length_append, Array.length_toList]
    exact place
  have size : grown.size = (doc.records.toList ++ front ++ ⟨ofKind, parent, row.tops⟩ ::
      back).length := by rw [before, size_mk]
  have last : grown.size = upper + 1 + inside.preorder.length := size_adopt_enclose ..
  have after : (doc.adopt (Nesting.enclose opened (inside ++ .leaf kind))).2 =
      mk (doc.records.toList ++ front ++ ⟨ofKind, parent, row.tops ++ [grown.size]⟩ ::
        (back ++ [NodeRecord.mk kind (some upper) []])).toArray := by
    rw [adopt_mk, records, Forest.numbered_append, Forest.tops_append, recordsOf_append,
      List.append_assoc, last]
    rfl
  have used : upper < grown.size := by
    rw [last]
    omega
  have apart := doc.isAncestorOf_create_adopt _ kind (Nat.le.intro place) used
  have created : grown.create kind = mk (doc.records.toList ++ front ++
      ⟨ofKind, parent, row.tops⟩ :: (back ++ [NodeRecord.mk kind none []])).toArray := by
    rw [before, create, List.push_toArray, List.append_assoc, List.cons_append]
  rw [after, ← length]
  exact appendChild_mk created size container (length ▸ apart)

theorem setAttribute_create (doc : Document) (name : String) (found : Attributes)
    (entry : String × String) :
    (doc.create (.element name found)).setAttribute doc.size entry.1 entry.2 =
      doc.create (.element name (found.set entry.1 entry.2)) := by
  obtain ⟨⟨front⟩⟩ := doc
  rw [setAttribute, kind_create, if_pos rfl]
  simp only [setKind, create, List.push_toArray, List.modify_toArray, size_mk, modify_length]

/-- An element whose attributes have different names is created with them. -/
theorem createElement_eq (doc : Document) (name : String) {attributes : Attributes}
    (distinct : (attributes.map Prod.fst).Nodup) :
    doc.createElement name attributes = doc.create (.element name attributes) := by
  have given (found later : Attributes) (distinct : ((found ++ later).map Prod.fst).Nodup) :
      later.foldl (fun out entry => out.setAttribute doc.size entry.1 entry.2)
        (doc.create (.element name found)) = doc.create (.element name (found ++ later)) := by
    induction later generalizing found with
    | nil => rw [List.append_nil, List.foldl_nil]
    | cons entry later induction =>
        have new : entry.1 ∉ found.map Prod.fst := by
          rw [List.map_append, List.nodup_append] at distinct
          exact fun earlier => distinct.2.2 _ earlier _ List.mem_cons_self rfl
        rw [List.foldl_cons, setAttribute_create, Attributes.set_of_notMem new, induction]
        · rw [List.append_assoc, List.singleton_append]
        · rwa [List.append_assoc, List.singleton_append]
  exact given [] attributes distinct

end Document

namespace Building

/-- What was built so far is what the nesting says, were all open elements closed. -/
structure Follows (doc : Document) (nesting : Nesting) (building : Building) : Prop where
  built : building.doc = (doc.adopt nesting.built).2
  root : building.root = doc.size
  opened : building.opened = Nesting.numbers doc.size nesting.opened

namespace Follows

variable {doc : Document} {nesting : Nesting} {building : Building}

theorem start (doc : Document) : Follows doc .empty (.start doc) where
  built := by
    obtain ⟨⟨front⟩⟩ := doc
    rw [Nesting.built, Nesting.empty, Nesting.enclose, Document.adopt_mk, Document.treeRecords_eq]
    simp [Building.start, Document.create, Forest.numbered, Document.recordsOf, Forest.roots]
  root := rfl
  opened := rfl

theorem container (follows : Follows doc nesting building) :
    building.container = Nesting.container doc.size nesting.opened := by
  rw [Building.container, follows.opened, follows.root]
  cases nesting.opened <;> rfl

theorem size (follows : Follows doc nesting building) : building.doc.size =
    Nesting.container doc.size nesting.opened + 1 + nesting.inside.preorder.length := by
  rw [follows.built]
  exact Document.size_adopt_enclose ..

theorem append (follows : Follows doc nesting building) (kind : NodeKind) :
    ∃ next, building.append (building.doc.create kind) = .ok next ∧
      Follows doc (nesting.add kind) next := by
  have appended := doc.appendChild_adopt nesting.opened nesting.inside kind
  rw [← Nesting.built, ← follows.built, ← follows.container] at appended
  refine ⟨{ building with doc := (doc.adopt (nesting.add kind).built).2 }, ?_,
    rfl, follows.root, follows.opened⟩
  rw [Building.append, appended]
  rfl

theorem depthOf? (follows : Follows doc nesting building) (name : String) :
    building.opened.findIdx? (fun entry => Text.sameLetters entry.2 name) =
      nesting.depthOf? name := by
  have names := Nesting.map_snd_numbers doc.size nesting.opened
  have left := List.findIdx?_map (f := Prod.snd) (l := building.opened)
    (p := fun other => Text.sameLetters other name)
  rw [follows.opened, names, List.findIdx?_map] at left
  rw [follows.opened, Nesting.depthOf?]
  exact left.symm

theorem consume (follows : Follows doc nesting building) {placed : Placed}
    (lexical : ∀ kind, placed.token.kind? = some kind → kind.Lexical) :
    ∃ next, building.consume placed = .ok (next, (nesting.consume placed).2) ∧
      Follows doc (nesting.consume placed).1 next := by
  unfold Building.consume Nesting.consume
  cases token : placed.token with
  | text value =>
      obtain ⟨next, appended, later⟩ := follows.append (.text value)
      exact ⟨next, by simp only [appended], later⟩
  | comment value =>
      obtain ⟨next, appended, later⟩ := follows.append (.comment value)
      exact ⟨next, by simp only [appended], later⟩
  | startTag name attributes selfClosing =>
      obtain ⟨next, appended, later⟩ := follows.append (.element name attributes)
      rw [token] at lexical
      obtain ⟨-, wellNamed⟩ := lexical _ rfl
      simp only [Document.createElement_eq _ _ wellNamed.distinct, appended]
      cases selfClosing || isVoid name with
      | true => exact ⟨next, rfl, later⟩
      | false =>
          refine ⟨_, rfl, later.built, later.root, ?_⟩
          dsimp only
          rw [Nesting.openElement, Nesting.numbers, Nesting.container, later.opened, follows.size]
          rfl
  | endTag name =>
      simp only [follows.depthOf?]
      cases nesting.depthOf? name with
      | some depth =>
          refine ⟨_, rfl, ?_, follows.root, ?_⟩
          · rw [Nesting.built_close]
            exact follows.built
          · exact (congrArg (List.drop _) follows.opened).trans (Nesting.drop_numbers ..)
      | none =>
          cases isVoid name with
          | true => exact ⟨building, rfl, follows⟩
          | false => exact ⟨building, rfl, follows⟩

theorem consumeAll (follows : Follows doc nesting building) {tokens : List Placed}
    (lexical : ∀ placed ∈ tokens, ∀ kind, placed.token.kind? = some kind → kind.Lexical) :
    ∃ last, building.consumeAll tokens = .ok (last, (nesting.consumeAll tokens).2) ∧
      Follows doc (nesting.consumeAll tokens).1 last := by
  induction tokens generalizing nesting building with
  | nil => exact ⟨building, rfl, follows⟩
  | cons placed rest induction =>
      obtain ⟨next, consumed, later⟩ := follows.consume (lexical placed List.mem_cons_self)
      obtain ⟨last, ran, finished⟩ := induction later fun other member =>
        lexical other (List.mem_cons_of_mem _ member)
      refine ⟨last, ?_, finished⟩
      rw [Building.consumeAll, consumed]
      simp only [ran]
      rfl

theorem finish (follows : Follows doc nesting building) :
    building.finish = nesting.finish.2 := by
  have names := Nesting.map_snd_numbers doc.size nesting.opened
  have outermost := congrArg List.getLast? names
  rw [List.getLast?_map, List.getLast?_map, ← follows.opened] at outermost
  have same := congrArg (Option.map Event.openAtEnd) outermost
  rw [Option.map_map, Option.map_map] at same
  exact congrArg Option.toList same

end Follows

end Building

/-- Reading token by token gives what reading the whole forest gives. -/
theorem Document.build_of_tokenize (doc : Document) {source : String} {tokens : List Placed}
    (read : tokenize source = .ok tokens) :
    ∃ building events, (Building.start doc).consumeAll tokens = .ok (building, events) ∧
      Building.Follows doc (Nesting.empty.consumeAll tokens).1 building ∧
      doc.build source =
        .ok (building.doc.children doc.size, building.doc, (nest tokens).2) := by
  have lexical := lexical_of_tokensFrom (tokenize_eq_ok.mp read)
  obtain ⟨building, ran, follows⟩ := (Building.Follows.start doc).consumeAll lexical
  refine ⟨building, _, ran, follows, ?_⟩
  rw [build, read]
  simp only [ran, follows.finish]
  rfl

end ViewTemplates
