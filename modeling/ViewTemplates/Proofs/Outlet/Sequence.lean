import Mathlib.Data.List.Nodup
import ViewTemplates.Outlet

/-!
The linked views of an outlet as a list. Taking a view out and linking one in are, on that list,
a removal and an insertion between two neighbours.
-/

namespace ViewTemplates

theorem Links.get?_eq_none {links : Links} {id : ViewId} (absent : id ∉ links.map Prod.fst) :
    links.get? id = none := by
  induction links with
  | nil => rfl
  | cons entry rest induction =>
      rw [List.map_cons, List.mem_cons, not_or] at absent
      rw [get?, if_neg (Ne.symm absent.1), induction absent.2]

@[simp] theorem Links.keys_update (links : Links) (id : ViewId) (f : Link → Link) :
    (links.update id f).map Prod.fst = links.map Prod.fst := by
  rw [update, List.map_map]
  apply List.map_congr_left
  rintro ⟨other, link⟩ _
  by_cases same : other = id <;> simp [same]

theorem Links.keys_erase (links : Links) (id : ViewId) :
    (links.erase id).map Prod.fst = (links.map Prod.fst).filter (· != id) := by
  rw [erase, List.filter_map]
  rfl

private theorem split_append {front back left right : List ViewId} {id : ViewId}
    (split : front ++ back = left ++ id :: right) :
    (∃ gap, front = left ++ id :: gap ∧ right = gap ++ back) ∨
      ∃ gap, back = gap ++ id :: right ∧ left = front ++ gap := by
  rcases List.append_eq_append_iff.mp split with ⟨gap, before, after⟩ | ⟨gap, before, after⟩
  · exact .inr ⟨gap, after, before⟩
  · cases gap with
    | nil => exact .inr ⟨[], after.symm, by simpa using before.symm⟩
    | cons first rest =>
        obtain ⟨rfl, rfl⟩ : id = first ∧ right = rest ++ back := by simpa using after
        exact .inl ⟨rest, before, rfl⟩

private theorem getLast?_eq_some_iff {left gap : List ViewId} {id : ViewId} (absent : id ∉ gap) :
    (left ++ id :: gap).getLast? = some id ↔ gap = [] := by
  cases gap with
  | nil => simp
  | cons first rest =>
      have inside : (left ++ id :: first :: rest).getLast? = (first :: rest).getLast? := by
        simp [List.getLast?_cons]
      rw [inside]
      constructor
      · intro atEnd
        exact absurd (List.mem_of_getLast? atEnd) absent
      · intro empty
        cases empty

private theorem head?_eq_some_iff {gap right : List ViewId} {id : ViewId} (absent : id ∉ gap) :
    (gap ++ id :: right).head? = some id ↔ gap = [] := by
  cases gap with
  | nil => simp
  | cons first rest =>
      rw [List.mem_cons, not_or] at absent
      simp [Ne.symm absent.1]

namespace Outlet

section links
variable (outlet : Outlet) (place id : Option ViewId)

@[simp] theorem anchor_linkForward : (outlet.linkForward place id).anchor = outlet.anchor := by
  cases place <;> rfl

@[simp] theorem anchor_linkBack : (outlet.linkBack place id).anchor = outlet.anchor := by
  cases place <;> rfl

@[simp] theorem keys_linkForward :
    (outlet.linkForward place id).links.map Prod.fst = outlet.links.map Prod.fst := by
  cases place with
  | none => rfl
  | some view => simp [linkForward]

@[simp] theorem keys_linkBack :
    (outlet.linkBack place id).links.map Prod.fst = outlet.links.map Prod.fst := by
  cases place with
  | none => rfl
  | some view => simp [linkBack]

theorem first_linkForward :
    (outlet.linkForward place id).first = if place = none then id else outlet.first := by
  cases place <;> rfl

theorem last_linkBack :
    (outlet.linkBack place id).last = if place = none then id else outlet.last := by
  cases place <;> rfl

@[simp] theorem last_linkForward : (outlet.linkForward place id).last = outlet.last := by
  cases place <;> rfl

@[simp] theorem first_linkBack : (outlet.linkBack place id).first = outlet.first := by
  cases place <;> rfl

theorem get?_linkForward (other : ViewId) :
    (outlet.linkForward place id).links.get? other =
      if place = some other then
        (outlet.links.get? other).map fun link => { link with next := id }
      else outlet.links.get? other := by
  cases place with
  | none => rfl
  | some view => simp [linkForward]

theorem get?_linkBack (other : ViewId) :
    (outlet.linkBack place id).links.get? other =
      if place = some other then
        (outlet.links.get? other).map fun link => { link with previous := id }
      else outlet.links.get? other := by
  cases place with
  | none => rfl
  | some view => simp [linkBack]

end links

/-- The links of the outlet run through the list in both directions. -/
structure Sequenced (outlet : Outlet) (nodesOf : ViewId → List NodeId)
    (sequence : List ViewId) : Prop where
  nodup : sequence.Nodup
  keys : (outlet.links.map Prod.fst).Perm sequence
  first : outlet.first = sequence.head?
  last : outlet.last = sequence.getLast?
  link : ∀ front id back, sequence = front ++ id :: back →
    outlet.links.get? id = some ⟨nodesOf id, front.getLast?, back.head?⟩

section sequenced
variable {outlet : Outlet} {nodesOf : ViewId → List NodeId} {sequence : List ViewId}

namespace Sequenced

theorem get?_eq_none (sequenced : outlet.Sequenced nodesOf sequence) {id : ViewId}
    (absent : id ∉ sequence) : outlet.links.get? id = none :=
  Links.get?_eq_none fun member => absent (sequenced.keys.mem_iff.mp member)

theorem contains_iff (sequenced : outlet.Sequenced nodesOf sequence) {id : ViewId} :
    outlet.contains id = true ↔ id ∈ sequence := by
  constructor
  · intro contained
    apply Decidable.byContradiction
    intro absent
    simp [contains, sequenced.get?_eq_none absent] at contained
  · intro member
    obtain ⟨front, back, rfl⟩ := List.append_of_mem member
    simp [contains, sequenced.link front id back rfl]

theorem size_eq (sequenced : outlet.Sequenced nodesOf sequence) :
    outlet.size = sequence.length := by
  simpa [size] using sequenced.keys.length_eq

theorem viewsFrom_eq (sequenced : outlet.Sequenced nodesOf sequence) {front back : List ViewId}
    (split : sequence = front ++ back) {limit : Nat} (enough : back.length ≤ limit) :
    outlet.viewsFrom limit back.head? = back := by
  induction back generalizing front limit with
  | nil => cases limit <;> rfl
  | cons id rest induction =>
      cases limit with
      | zero => simp at enough
      | succ limit =>
          have next : outlet.next? id = rest.head? := by
            simp [next?, sequenced.link front id rest split]
          have further : sequence = (front ++ [id]) ++ rest := by simpa using split
          rw [List.head?_cons, viewsFrom, next,
            induction further (Nat.le_of_succ_le_succ enough)]

theorem views_eq (sequenced : outlet.Sequenced nodesOf sequence) : outlet.views = sequence := by
  rw [views, sequenced.first, sequenced.size_eq]
  exact sequenced.viewsFrom_eq (List.nil_append _).symm (Nat.le_succ _)

theorem firstNodeFrom_eq (sequenced : outlet.Sequenced nodesOf sequence)
    {front back : List ViewId} (split : sequence = front ++ back) {limit : Nat}
    (enough : back.length ≤ limit) :
    outlet.firstNodeFrom limit back.head? = (back.flatMap nodesOf).head? := by
  induction back generalizing front limit with
  | nil => cases limit <;> rfl
  | cons id rest induction =>
      cases limit with
      | zero => simp at enough
      | succ limit =>
          rw [List.head?_cons, firstNodeFrom, sequenced.link front id rest split]
          cases nodes : nodesOf id with
          | nil =>
              have further : sequence = (front ++ [id]) ++ rest := by simpa using split
              have skipped := induction further (Nat.le_of_succ_le_succ enough)
              simpa [nodes] using skipped
          | cons node others => simp [nodes]

theorem nodeBehind_eq (sequenced : outlet.Sequenced nodesOf sequence)
    {front back : List ViewId} (split : sequence = front ++ back) :
    outlet.nodeBehind back.head? = (back.flatMap nodesOf).head?.getD outlet.anchor := by
  have bound : back.length ≤ outlet.size + 1 := by
    rw [sequenced.size_eq, split, List.length_append]
    omega
  rw [nodeBehind, sequenced.firstNodeFrom_eq split bound]

theorem unlink (sequenced : outlet.Sequenced nodesOf sequence) {front back : List ViewId}
    {id : ViewId} (split : sequence = front ++ id :: back) {link : Link}
    (found : outlet.links.get? id = some link) :
    (outlet.unlink id link).Sequenced nodesOf (front ++ back) := by
  subst split
  obtain rfl : ⟨nodesOf id, front.getLast?, back.head?⟩ = link :=
    Option.some.inj ((sequenced.link front id back rfl).symm.trans found)
  have distinct := sequenced.nodup
  constructor
  case nodup => exact distinct.sublist (by simp)
  case keys =>
    have fewer := sequenced.keys.filter (· != id)
    have absent : id ∉ front ∧ id ∉ back := by
      simp only [List.nodup_append, List.nodup_cons, List.mem_cons] at distinct
      exact ⟨fun member => distinct.2.2 id member id (.inl rfl) rfl, distinct.2.1.1⟩
    have others (row : List ViewId) (without : id ∉ row) : row.filter (· != id) = row := by
      apply List.filter_eq_self.mpr
      intro other member
      simp only [bne_iff_ne]
      rintro rfl
      exact without member
    rw [List.filter_append, List.filter_cons_of_neg (by simp), others front absent.1,
      others back absent.2] at fewer
    simpa [Outlet.unlink, Links.keys_erase] using fewer
  case first =>
    cases front <;> simp [Outlet.unlink, first_linkForward, sequenced.first]
  case last =>
    cases back <;> simp [Outlet.unlink, last_linkBack, sequenced.last]
  case link =>
    intro left other right split
    simp only [Outlet.unlink, get?_linkBack, get?_linkForward, Links.get?_erase]
    rcases split_append split with ⟨gap, rfl, rfl⟩ | ⟨gap, rfl, rfl⟩
    · have before := sequenced.link left other (gap ++ id :: back) (by simp)
      have apart : id ≠ other ∧ other ∉ gap ∧ other ∉ back := by
        grind [List.nodup_append, List.nodup_cons]
      have behind : back.head? ≠ some other := fun atHead =>
        apart.2.2 (List.mem_of_mem_head? atHead)
      rw [if_neg behind, if_neg apart.1, before]
      simp only [getLast?_eq_some_iff apart.2.1]
      cases gap <;> simp
    · have before := sequenced.link (front ++ id :: gap) other right (by simp)
      have apart : id ≠ other ∧ other ∉ gap ∧ other ∉ front := by
        grind [List.nodup_append, List.nodup_cons]
      have ahead : front.getLast? ≠ some other := fun atEnd =>
        apart.2.2 (List.mem_of_getLast? atEnd)
      rw [if_neg ahead, if_neg apart.1, before]
      simp only [head?_eq_some_iff apart.2.1]
      cases gap <;> simp

/-- A view linked in between two neighbours stands there in the sequence. -/
theorem link_between {view : View} {front back : List ViewId}
    (sequenced : outlet.Sequenced nodesOf (front ++ back)) (absent : view.id ∉ front ++ back)
    (nodes : nodesOf view.id = view.nodes) :
    (outlet.link view front.getLast? back.head?).Sequenced nodesOf (front ++ view.id :: back) := by
  have distinct := sequenced.nodup
  rw [List.mem_append, not_or] at absent
  constructor
  case nodup => grind [List.nodup_append, List.nodup_cons]
  case keys =>
    have more := sequenced.keys.cons view.id
    have keys : (outlet.link view front.getLast? back.head?).links.map Prod.fst =
        view.id :: outlet.links.map Prod.fst := by
      simp [Outlet.link, Links.insert]
    rw [keys]
    exact more.trans List.perm_middle.symm
  case first =>
    cases front <;> simp [Outlet.link, first_linkForward, sequenced.first]
  case last =>
    cases back <;> simp [Outlet.link, last_linkBack, sequenced.last]
  case link =>
    intro left other right split
    simp only [Outlet.link, Links.get?_insert, get?_linkBack, get?_linkForward]
    rcases split_append split with ⟨gap, rfl, rfl⟩ | ⟨gap, after, rfl⟩
    · have before := sequenced.link left other (gap ++ back) (by simp)
      have apart : view.id ≠ other ∧ other ∉ gap ∧ other ∉ back := by
        grind [List.nodup_append, List.nodup_cons]
      have behind : back.head? ≠ some other := fun atHead =>
        apart.2.2 (List.mem_of_mem_head? atHead)
      rw [if_neg apart.1, if_neg behind, before]
      simp only [getLast?_eq_some_iff apart.2.1]
      cases gap <;> simp
    · cases gap with
      | nil =>
          obtain ⟨rfl, rfl⟩ : view.id = other ∧ back = right := by simpa using after
          simp [nodes]
      | cons first rest =>
          obtain ⟨rfl, rfl⟩ : view.id = first ∧ back = rest ++ other :: right := by
            simpa using after
          have before := sequenced.link (front ++ rest) other right (by simp)
          have apart : view.id ≠ other ∧ other ∉ rest ∧ other ∉ front := by
            grind [List.nodup_append, List.nodup_cons]
          have ahead : front.getLast? ≠ some other := fun atEnd =>
            apart.2.2 (List.mem_of_getLast? atEnd)
          rw [if_neg apart.1, if_neg ahead, before]
          simp only [head?_eq_some_iff apart.2.1]
          cases rest <;> simp

/-- A reference in the sequence is there without another view, too. -/
theorem split_reference (sequenced : outlet.Sequenced nodesOf sequence) {id reference : ViewId}
    (different : id ≠ reference) (member : reference ∈ sequence) :
    ∃ left right, sequence.erase id = left ++ reference :: right ∧
      reference ∉ left ++ right := by
  obtain ⟨left, right, split⟩ :=
    List.append_of_mem ((List.mem_erase_of_ne (Ne.symm different)).mpr member)
  refine ⟨left, right, split, ?_⟩
  have distinct := sequenced.nodup.erase id
  rw [split] at distinct
  exact (List.nodup_middle.mp distinct).notMem

end Sequenced

end sequenced

theorem flatMap_reference {left right : List ViewId} {reference : ViewId}
    {inserted : ViewId → List ViewId} (absent : reference ∉ left ++ right) :
    (left ++ reference :: right).flatMap
        (fun id => if id = reference then inserted id else [id]) =
      left ++ inserted reference ++ right := by
  have others (row : List ViewId) (without : reference ∉ row) :
      row.flatMap (fun id => if id = reference then inserted id else [id]) = row := by
    induction row with
    | nil => rfl
    | cons id rest induction =>
        rw [List.mem_cons, not_or] at without
        rw [List.flatMap_cons, if_neg (Ne.symm without.1), induction without.2]
        rfl
  rw [List.mem_append, not_or] at absent
  rw [List.flatMap_append, List.flatMap_cons, if_pos rfl, others left absent.1,
    others right absent.2, List.append_assoc]

end Outlet

end ViewTemplates
