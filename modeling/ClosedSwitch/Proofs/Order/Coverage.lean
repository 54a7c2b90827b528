import ClosedSwitch.Proofs.Coverage.Declared
import ClosedSwitch.Proofs.Order.Renumbering

/-!
# Coverage under other numbers

What a declared case covers depends on the names in it and on what these names stand
for, not on the numbers of the types.  The declared evaluator gives the same answers in
two scopes with the same types and extensions under different numbers, where a type that
is handed to it follows the permutation.
-/

namespace ClosedSwitch

namespace Scope

/-- The scope `S'` has the types and the extensions of `S` under other numbers. -/
structure Renumbers (σ : Equiv.Perm TypeId) (S S' : Scope) : Prop where
  types : TypeTable.Renumbers σ S.types S'.types
  extensions_eq : S'.extensions = S.extensions.map (Extension.map σ)

namespace Renumbers

variable {σ : Equiv.Perm TypeId} {S S' : Scope}

theorem findMethod?_eq (h : Renumbers σ S S') (t : TypeId) (arity : Nat) :
    S'.findMethod? (σ t) arity = (S.findMethod? t arity).map (DeconstructMethod.map σ) := by
  rw [findMethod?, findMethod?, h.types.findDeconstructor?_eq]
  cases S.types.findDeconstructor? t arity with
  | some parameters => rfl
  | none =>
      have happlies : ∀ e : Extension TypeId,
          ((e.map σ).parameters.length == arity &&
            S'.types.converts (σ t) (e.map σ).receiver) =
          (e.parameters.length == arity && S.types.converts t e.receiver) := by
        intro e
        rw [Extension.map, List.length_map, h.types.converts_eq]
      simp only [Option.map_none, h.extensions_eq, List.find?_map, Option.map_map,
        Function.comp_def, happlies]
      rfl

theorem bind_findMethod?_eq
    (h : Renumbers σ S S') (static : Option TypeId) (arity : Nat) :
    (static.map σ).bind (S'.findMethod? · arity) =
      (static.bind (S.findMethod? · arity)).map (DeconstructMethod.map σ) := by
  cases static with
  | none => rfl
  | some t => exact h.findMethod?_eq t arity

theorem bind_findProperty?_eq
    (h : Renumbers σ S S') (static : Option TypeId) (name : String) :
    ((static.map σ).bind (S'.types.findProperty? · name)).join =
      (static.bind (S.types.findProperty? · name)).join.map σ := by
  cases static with
  | none => rfl
  | some t =>
      rw [Option.map_some, Option.bind_some, Option.bind_some, h.types.findProperty?_eq]
      rcases S.types.findProperty? t name with _ | _ | u <;> rfl

theorem bind_elementType_eq (method : Option DeconstructMethod) (index : Nat) :
    (method.map (DeconstructMethod.map σ)).bind (·.elementType index) =
      (method.bind (·.elementType index)).map σ := by
  cases method with
  | none => rfl
  | some m => exact m.elementType_map σ index

theorem narrow_eq
    (h : Renumbers σ S S') (name : Option String) (input : Option TypeId) :
    S'.narrow name (input.map σ) = (S.narrow name input).map σ := by
  cases name with
  | none => rfl
  | some name =>
      rw [narrow, narrow, Option.bind_some, Option.bind_some, h.types.find?_eq]
      cases S.types.find? name <;> rfl

theorem testedType?_eq (h : Renumbers σ S S') (p : DeclaredPattern) :
    S'.testedType? p = (S.testedType? p).map σ := by
  cases p with
  | constant value =>
      cases value with
      | name name => exact h.types.find?_eq name
      | null => rfl
      | literal text => rfl
  | type name => exact h.types.find?_eq name
  | declaration name designation => exact h.types.find?_eq name
  | recursive name positional properties designation =>
      cases name with
      | none => rfl
      | some name => exact h.types.find?_eq name
  | discard => rfl
  | var designation => rfl
  | relational op value => rfl
  | undescribed => rfl

theorem any_converts_eq (h : Renumbers σ S S') (o : Option TypeId) (t : TypeId) :
    (o.map σ).any (S'.types.converts (σ t)) = o.any (S.types.converts t) := by
  cases o with
  | none => rfl
  | some u => exact h.types.converts_eq t u

theorem widens_eq (h : Renumbers σ S S') (name : String) (member : Option TypeId) :
    S'.widens name (member.map σ) = S.widens name member := by
  simp only [widens, h.types.find?_eq]
  cases S.types.find? name with
  | none => rfl
  | some declared =>
      cases member with
      | none => rfl
      | some t => exact h.types.converts_eq t declared

theorem headAccepts_eq
    (h : Renumbers σ S S') (member : Option TypeId) (p : DeclaredPattern) :
    S'.headAccepts (member.map σ) p = S.headAccepts member p := by
  cases p with
  | declaration name designation => exact h.widens_eq name member
  | recursive name positional properties designation =>
      cases name with
      | none => rfl
      | some name => exact h.widens_eq name member
  | constant value => rfl
  | type name => rfl
  | discard => rfl
  | var designation => rfl
  | relational op value => rfl
  | undescribed => rfl

mutual

theorem clausesAccept_eq
    (h : Renumbers σ S S') (input : Option TypeId) (p : DeclaredPattern) :
    S'.clausesAccept (input.map σ) p = S.clausesAccept input p := by
  cases p with
  | recursive name positional properties designation =>
      rw [clausesAccept, clausesAccept, h.narrow_eq, h.positionalAccepts_eq _ positional,
        h.propertiesAccept_eq _ properties]
  | constant value => rfl
  | type name => rfl
  | declaration name designation => rfl
  | discard => rfl
  | var designation => rfl
  | relational op value => rfl
  | undescribed => rfl

theorem positionalAccepts_eq
    (h : Renumbers σ S S') (static : Option TypeId)
    (positional : Option (PositionalClause Unit DeclaredPattern)) :
    S'.positionalAccepts (static.map σ) positional =
      S.positionalAccepts static positional := by
  rcases positional with _ | ⟨_, elements⟩
  · rfl
  · rw [positionalAccepts, positionalAccepts, h.bind_findMethod?_eq,
      h.elementsAccept_eq _ 0 elements]

theorem propertiesAccept_eq
    (h : Renumbers σ S S') (static : Option TypeId)
    (properties : Option (List (MemberPattern String DeclaredPattern))) :
    S'.propertiesAccept (static.map σ) properties =
      S.propertiesAccept static properties := by
  rcases properties with _ | members
  · rfl
  · exact h.membersAccept_eq static members

theorem elementsAccept_eq
    (h : Renumbers σ S S') (method : Option DeconstructMethod) (index : Nat)
    (ps : List DeclaredPattern) :
    S'.elementsAccept (method.map (DeconstructMethod.map σ)) index ps =
      S.elementsAccept method index ps := by
  cases ps with
  | nil => rfl
  | cons p rest =>
      rw [elementsAccept, elementsAccept, bind_elementType_eq, h.headAccepts_eq,
        h.clausesAccept_eq _ p, h.elementsAccept_eq method (index + 1) rest]

theorem membersAccept_eq
    (h : Renumbers σ S S') (static : Option TypeId)
    (ps : List (MemberPattern String DeclaredPattern)) :
    S'.membersAccept (static.map σ) ps = S.membersAccept static ps := by
  rcases ps with _ | ⟨⟨name, p⟩, rest⟩
  · rfl
  · rw [membersAccept, membersAccept, h.bind_findProperty?_eq, h.headAccepts_eq,
      h.clausesAccept_eq _ p, h.membersAccept_eq static rest]

end

theorem caseCovers_eq
    (h : Renumbers σ S S') (input : Option TypeId) (c : DeclaredCase) (target : TypeId) :
    S'.caseCovers (input.map σ) c (σ target) = S.caseCovers input c target := by
  rw [caseCovers, caseCovers, h.testedType?_eq, h.any_converts_eq, h.clausesAccept_eq]

theorem labelCovers_eq
    (h : Renumbers σ S S') (input : Option TypeId) (target : TypeId) (l : DeclaredLabel) :
    S'.labelCovers (input.map σ) (σ target) l = S.labelCovers input target l := by
  cases l with
  | value constant span =>
      cases constant with
      | name name =>
          rw [labelCovers, labelCovers, h.types.find?_eq, h.any_converts_eq]
      | null => rfl
      | literal text => rfl
  | case c => exact h.caseCovers_eq input c target
  | otherwise span => rfl

theorem staticType_eq (h : Renumbers σ S S') (g : Governing) :
    g.staticType S' = (g.staticType S).map σ := by
  rw [Governing.staticType, Governing.staticType]
  cases g.type with
  | none => rfl
  | some name => exact h.types.find?_eq name

end Renumbers

end Scope

end ClosedSwitch
