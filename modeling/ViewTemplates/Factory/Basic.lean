import ViewTemplates.Factory.Binder

/-!
Factories: compiled templates that views are made from. A factory holds the factories of the
directives in it; `Factory.fold` is the recursion over them.
-/

namespace ViewTemplates

/-- The nodes of a template and its binders, the one of the top level first. -/
inductive Factory where
  | mk (template : Forest NodeKind) (binders : List (ElementBinder Factory))

namespace Factory

def template : Factory → Forest NodeKind
  | mk template _ => template

def binders : Factory → List (ElementBinder Factory)
  | mk _ binders => binders

section
variable (f : Forest NodeKind → List (ElementBinder β) → β)

mutual

/-- Replace every factory, the inner ones first, by what the function makes of its template and its
binders. -/
def fold : Factory → β
  | mk template binders => f template (foldBinders binders)

def foldBinders : List (ElementBinder Factory) → List (ElementBinder β)
  | [] => []
  | binder :: rest => foldBinder binder :: foldBinders rest

def foldBinder : ElementBinder Factory → ElementBinder β
  | ⟨level, elementIndex, decorators, role, slots⟩ =>
      ⟨level, elementIndex, decorators, foldRole role, foldSlots slots⟩

def foldRole : Role Factory → Role β
  | .decorated => .decorated
  | .template binding => .template (foldBinding binding)
  | .component binding => .component (foldBinding binding)

def foldSlots : List (Slot Factory) → List (Slot β)
  | [] => []
  | slot :: rest => foldSlot slot :: foldSlots rest

def foldSlot : Slot Factory → Slot β
  | ⟨position, kind⟩ => ⟨position, foldSlotKind kind⟩

def foldSlotKind : SlotKind Factory → SlotKind β
  | .text => .text
  | .anchor binding => .anchor (foldBinding binding)

def foldBinding : Binding Factory → Binding β
  | ⟨directive, view⟩ => ⟨directive, fold view⟩

end

theorem foldBinding_eq (binding : Binding Factory) :
    foldBinding f binding = binding.map (fold f) := by
  cases binding
  simp [foldBinding, Binding.map]

theorem foldSlot_eq (slot : Slot Factory) : foldSlot f slot = slot.map (fold f) := by
  obtain ⟨position, kind⟩ := slot
  cases kind <;> simp [foldSlot, foldSlotKind, Slot.map, SlotKind.map, foldBinding_eq]

theorem foldSlots_eq (slots : List (Slot Factory)) :
    foldSlots f slots = slots.map (·.map (fold f)) := by
  induction slots with
  | nil => simp [foldSlots]
  | cons slot rest induction => simp [foldSlots, foldSlot_eq, induction]

theorem foldBinder_eq (binder : ElementBinder Factory) :
    foldBinder f binder = binder.map (fold f) := by
  obtain ⟨level, elementIndex, decorators, role, slots⟩ := binder
  cases role <;>
    simp [foldBinder, foldRole, ElementBinder.map, Role.map, foldSlots_eq, foldBinding_eq]

theorem foldBinders_eq (binders : List (ElementBinder Factory)) :
    foldBinders f binders = binders.map (·.map (fold f)) := by
  induction binders with
  | nil => simp [foldBinders]
  | cons binder rest induction => simp [foldBinders, foldBinder_eq, induction]

@[simp] theorem fold_mk (template : Forest NodeKind) (binders : List (ElementBinder Factory)) :
    fold f (mk template binders) = f template (binders.map (·.map (fold f))) := by
  simp [fold, foldBinders_eq]

end

end Factory

end ViewTemplates
