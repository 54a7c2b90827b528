import ClosedSwitch.Coverage
import ClosedSwitch.Proofs.TypeTable.Conversion

/-!
# Covering cases match

What it means for an object to match a pattern, and that a case which covers a
type is matched by every object of that type.  Members and deconstructed
elements are objects again, so the argument goes down through the clauses of a
pattern together with the static types that the nodes are bound to.

Nothing is assumed about the objects that match a literal, a comparison or a
pattern that is not described: the evaluator never relies on one.
-/

namespace ClosedSwitch

namespace Program

/-! ## A case that covers a type covers what converts to it -/

theorem caseCovers_of_converts
    {P : Program} (hobject : P.types.supertypes TypeTable.object = [])
    {c : BoundCase} {target t : TypeId} (hcovers : P.caseCovers c target = true)
    (ht : P.types.converts t target = true) :
    P.caseCovers c t = true := by
  simp only [caseCovers, patternCovers, Bool.and_eq_true, Option.any_eq_true]
    at hcovers ⊢
  obtain ⟨hguard, ⟨u, hu, htarget⟩, hclauses⟩ := hcovers
  exact ⟨hguard, ⟨u, hu, TypeTable.converts_trans hobject ht htarget⟩, hclauses⟩

theorem labelCovers_of_converts
    {P : Program} (hobject : P.types.supertypes TypeTable.object = [])
    {l : BoundLabel} {target t : TypeId} (hcovers : P.labelCovers target l = true)
    (ht : P.types.converts t target = true) :
    P.labelCovers t l = true := by
  cases l with
  | value constant span =>
      cases constant with
      | name node =>
          rw [labelCovers, Option.any_eq_true] at hcovers ⊢
          obtain ⟨u, hu, htarget⟩ := hcovers
          exact ⟨u, hu, TypeTable.converts_trans hobject ht htarget⟩
      | null => simp [labelCovers] at hcovers
      | literal text => simp [labelCovers] at hcovers
  | case c => exact caseCovers_of_converts hobject hcovers ht
  | otherwise span => simp [labelCovers] at hcovers

end Program

/-! ## What it means to match -/

/-- Objects with their runtime types, and the objects that their members and
deconstructed elements are.  Where the static type of one of these is known, the
object there converts to it. -/
structure Interpretation (P : Program) (α : Type*) where
  runtimeType : α → TypeId
  member : α → NodeId → α
  element : α → NodeId → Nat → α
  /-- The objects that a pattern of a kind without a type or clauses accepts. -/
  accepts : BoundPattern → α → Prop
  member_converts : ∀ o node t, P.memberType? node = some t →
    P.types.converts (runtimeType (member o node)) t = true
  element_converts : ∀ o node method index t,
    P.method? node = some method → method.elementType index = some t →
      P.types.converts (runtimeType (element o node index)) t = true

namespace Interpretation

variable {P : Program} {α : Type*} (I : Interpretation P α)

/-- The object is of the type that the node names. -/
def IsInstance (node : NodeId) (o : α) : Prop :=
  ∃ t, P.namedType? node = some t ∧ P.types.converts (I.runtimeType o) t = true

mutual

/-- The object matches the pattern. -/
def Matches : BoundPattern → α → Prop
  | .constant .null, o => I.accepts (.constant .null) o
  | .constant (.literal text), o => I.accepts (.constant (.literal text)) o
  | .constant (.name node), o => I.IsInstance node o
  | .type node, o => I.IsInstance node o
  | .declaration node _, o => I.IsInstance node o
  | .recursive name positional properties _, o =>
    (∀ node ∈ name, I.IsInstance node o) ∧ MatchesPositional positional o
      ∧ MatchesProperties properties o
  | .discard, _ => True
  | .var _, _ => True
  | .relational op value, o => I.accepts (.relational op value) o
  | .undescribed, o => I.accepts .undescribed o

def MatchesPositional : Option (PositionalClause NodeId BoundPattern) → α → Prop
  | none, _ => True
  | some ⟨node, elements⟩, o => MatchesElements node 0 elements o

def MatchesProperties : Option (List (MemberPattern NodeId BoundPattern)) → α → Prop
  | none, _ => True
  | some members, o => MatchesMembers members o

/-- The elements of the object from `index` on match the patterns. -/
def MatchesElements (node : NodeId) (index : Nat) : List BoundPattern → α → Prop
  | [], _ => True
  | p :: rest, o =>
    Matches p (I.element o node index) ∧ MatchesElements node (index + 1) rest o

def MatchesMembers : List (MemberPattern NodeId BoundPattern) → α → Prop
  | [], _ => True
  | ⟨node, p⟩ :: rest, o => Matches p (I.member o node) ∧ MatchesMembers rest o

end

/-- The object matches the case, which has no guard. -/
def MatchesCase (c : BoundCase) (o : α) : Prop :=
  c.isGuarded = false ∧ I.Matches c.pattern o

/-- The object matches the label, which is not the default label. -/
def MatchesLabel : BoundLabel → α → Prop
  | .value constant _, o => I.Matches (.constant constant) o
  | .case c, o => I.MatchesCase c o
  | .otherwise _, _ => False

variable {I}

theorem isInstance_of_widens
    (hobject : P.types.supertypes TypeTable.object = [])
    {node : NodeId} {member : Option TypeId} {o : α}
    (hwidens : P.widens node member = true)
    (ho : ∀ t ∈ member, P.types.converts (I.runtimeType o) t = true) :
    I.IsInstance node o := by
  unfold Program.widens at hwidens
  split at hwidens
  next _ _ declared t hdeclared =>
    exact ⟨declared, hdeclared,
      TypeTable.converts_trans hobject (ho t rfl) hwidens⟩
  · simp at hwidens

mutual

/-- A sub-pattern that accepts every value of a static type is matched by every
object that converts to it. -/
theorem matches_of_accepts
    (hobject : P.types.supertypes TypeTable.object = [])
    {member : Option TypeId} {o : α} (p : BoundPattern)
    (hhead : P.headAccepts member p = true) (hclauses : P.clausesAccept p = true)
    (ho : ∀ t ∈ member, P.types.converts (I.runtimeType o) t = true) :
    I.Matches p o := by
  cases p with
  | declaration node designation => exact isInstance_of_widens hobject hhead ho
  | recursive name positional properties designation =>
      rw [Program.clausesAccept, Bool.and_eq_true, Bool.and_eq_true] at hclauses
      obtain ⟨⟨-, hpositional⟩, hproperties⟩ := hclauses
      refine ⟨?_, matchesPositional_of_accepts hobject positional hpositional,
        matchesProperties_of_accepts hobject properties hproperties⟩
      rintro node rfl
      exact isInstance_of_widens hobject hhead ho
  | discard => trivial
  | var designation => trivial
  | constant value => simp [Program.headAccepts] at hhead
  | type node => simp [Program.headAccepts] at hhead
  | relational op value => simp [Program.headAccepts] at hhead
  | undescribed => simp [Program.headAccepts] at hhead

theorem matchesPositional_of_accepts
    (hobject : P.types.supertypes TypeTable.object = []) {o : α}
    (positional : Option (PositionalClause NodeId BoundPattern))
    (h : P.positionalAccepts positional = true) :
    I.MatchesPositional positional o := by
  rcases positional with _ | ⟨node, elements⟩
  · trivial
  · exact matchesElements_of_accepts hobject elements h

theorem matchesProperties_of_accepts
    (hobject : P.types.supertypes TypeTable.object = []) {o : α}
    (properties : Option (List (MemberPattern NodeId BoundPattern)))
    (h : P.propertiesAccept properties = true) :
    I.MatchesProperties properties o := by
  rcases properties with _ | members
  · trivial
  · exact matchesMembers_of_accepts hobject members h

theorem matchesElements_of_accepts
    (hobject : P.types.supertypes TypeTable.object = [])
    {node : NodeId} {index : Nat} {o : α} (ps : List BoundPattern)
    (h : P.elementsAccept (P.method? node) index ps = true) :
    I.MatchesElements node index ps o := by
  cases ps with
  | nil => trivial
  | cons p rest =>
      rw [Program.elementsAccept, Bool.and_eq_true, Bool.and_eq_true] at h
      refine ⟨matches_of_accepts hobject p h.1.1 h.1.2 ?_,
        matchesElements_of_accepts hobject rest h.2⟩
      intro t ht
      obtain ⟨method, hmethod, helement⟩ := Option.bind_eq_some_iff.mp ht
      exact I.element_converts o node method index t hmethod helement

theorem matchesMembers_of_accepts
    (hobject : P.types.supertypes TypeTable.object = []) {o : α}
    (ps : List (MemberPattern NodeId BoundPattern))
    (h : P.membersAccept ps = true) :
    I.MatchesMembers ps o := by
  rcases ps with _ | ⟨⟨node, p⟩, rest⟩
  · trivial
  · rw [Program.membersAccept, Bool.and_eq_true, Bool.and_eq_true] at h
    exact ⟨matches_of_accepts hobject p h.1.1 h.1.2 (I.member_converts o node),
      matchesMembers_of_accepts hobject rest h.2⟩

end

theorem matches_of_patternCovers
    (hobject : P.types.supertypes TypeTable.object = [])
    {p : BoundPattern} {target : TypeId} {o : α}
    (hcovers : P.patternCovers p target = true)
    (ho : P.types.converts (I.runtimeType o) target = true) :
    I.Matches p o := by
  rw [Program.patternCovers, Bool.and_eq_true, Option.any_eq_true] at hcovers
  obtain ⟨⟨t, ht, htarget⟩, hclauses⟩ := hcovers
  have hconverts := TypeTable.converts_trans hobject ho htarget
  cases p with
  | constant value =>
      cases value with
      | name node => exact ⟨t, ht, hconverts⟩
      | null => simp [Program.testedType?] at ht
      | literal text => simp [Program.testedType?] at ht
  | type node => exact ⟨t, ht, hconverts⟩
  | declaration node designation => exact ⟨t, ht, hconverts⟩
  | recursive name positional properties designation =>
      cases name with
      | none => simp [Program.testedType?] at ht
      | some node =>
          -- The tested type widens the target, as if that were a member's type.
          have hhead : P.widens node (some target) = true := by
            simp only [Program.testedType?] at ht
            simp [Program.widens, ht, htarget]
          refine matches_of_accepts hobject _ hhead hclauses ?_
          intro u hu
          exact Option.mem_some.mp hu ▸ ho
  | discard => simp [Program.testedType?] at ht
  | var designation => simp [Program.testedType?] at ht
  | relational op value => simp [Program.testedType?] at ht
  | undescribed => simp [Program.testedType?] at ht

theorem matchesCase_of_caseCovers
    (hobject : P.types.supertypes TypeTable.object = [])
    {c : BoundCase} {target : TypeId} {o : α}
    (hcovers : P.caseCovers c target = true)
    (ho : P.types.converts (I.runtimeType o) target = true) :
    I.MatchesCase c o := by
  rw [Program.caseCovers, Bool.and_eq_true, Bool.not_eq_true'] at hcovers
  exact ⟨hcovers.1, matches_of_patternCovers hobject hcovers.2 ho⟩

theorem matchesLabel_of_labelCovers
    (hobject : P.types.supertypes TypeTable.object = [])
    {l : BoundLabel} {target : TypeId} {o : α}
    (hcovers : P.labelCovers target l = true)
    (ho : P.types.converts (I.runtimeType o) target = true) :
    I.MatchesLabel l o := by
  cases l with
  | value constant span =>
      cases constant with
      | name node =>
          rw [Program.labelCovers, Option.any_eq_true] at hcovers
          obtain ⟨t, ht, htarget⟩ := hcovers
          exact ⟨t, ht, TypeTable.converts_trans hobject ho htarget⟩
      | null => simp [Program.labelCovers] at hcovers
      | literal text => simp [Program.labelCovers] at hcovers
  | case c => exact matchesCase_of_caseCovers hobject hcovers ho
  | otherwise span => simp [Program.labelCovers] at hcovers

end Interpretation

end ClosedSwitch
