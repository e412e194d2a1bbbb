import ViewTemplates.Directive.Registry

/-!
What the directives on one element amount to: any number of decorators, and one claim at most.
-/

namespace ViewTemplates

inductive Claim where
  | template (directive : DirectiveRef)
  | component (directive : DirectiveRef) (source : ComponentSource)

def Claim.directive : Claim → DirectiveRef
  | template directive | component directive _ => directive

def Claim.ofDirective? (index : Nat) (directive : Directive) : Option Claim :=
  match directive.kind with
  | .decorator => none
  | .template => some (.template ⟨index, directive.name⟩)
  | .component source => some (.component ⟨index, directive.name⟩ source)

def decoratorsOf (directives : List (Nat × Directive)) : List DirectiveRef :=
  directives.filterMap fun (index, directive) =>
    match Claim.ofDirective? index directive with
    | none => some ⟨index, directive.name⟩
    | some _ => none

def claimsOf (directives : List (Nat × Directive)) : List Claim :=
  directives.filterMap fun (index, directive) => Claim.ofDirective? index directive

/-- The only claim there is, if any; two claims on the element are an error. -/
def soleClaim (element : String) (directives : List (Nat × Directive)) :
    Except Error (Option Claim) :=
  match claimsOf directives with
  | [] => .ok none
  | [claim] => .ok (some claim)
  | first :: second :: _ =>
      .error (.conflictingDirectives element first.directive.name second.directive.name)

end ViewTemplates
