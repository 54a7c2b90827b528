import ClosedSwitch.Program.Locate
import ClosedSwitch.Proofs.Coverage.Declared

/-!
# Restrictions at any depth

A recursive pattern from which one sub-pattern is taken out is a frame, and frames inside
one another are a context: a pattern with a hole at some depth.  Whether the pattern
accepts every value depends on the sub-pattern in the hole through one question only, which
is whether the sub-pattern accepts every value of the member or element that it is applied
to.  So a restriction is noticed wherever it stands, a sub-pattern that restricts nothing
can take the place of any other, and what a covering pattern rests on holds at each of its
places.
-/

namespace ClosedSwitch

variable {ν κ : Type}

/-! ## Patterns with a hole -/

/-- A recursive pattern without one of its sub-patterns: an element of the positional clause,
which has the elements `before` in front of it, or the pattern of a member. -/
inductive PatternFrame (ν κ : Type) where
  | element (name : Option ν) (label : κ) (before after : List (Pattern ν κ))
      (properties : Option (List (MemberPattern ν (Pattern ν κ))))
      (designation : Option String)
  | property (name : Option ν) (positional : Option (PositionalClause κ (Pattern ν κ)))
      (before : List (MemberPattern ν (Pattern ν κ))) (member : ν)
      (after : List (MemberPattern ν (Pattern ν κ))) (designation : Option String)

/-- The recursive pattern with `p` as the sub-pattern that was left out. -/
def PatternFrame.fill : PatternFrame ν κ → Pattern ν κ → Pattern ν κ
  | .element name label before after properties designation, p =>
    .recursive name (some ⟨label, before ++ p :: after⟩) properties designation
  | .property name positional before member after designation, p =>
    .recursive name positional (some (before ++ ⟨member, p⟩ :: after)) designation

/-- A pattern with a hole, which is inside any number of frames. -/
inductive PatternContext (ν κ : Type) where
  | hole
  | inside (frame : PatternFrame ν κ) (inner : PatternContext ν κ)

def PatternContext.fill : PatternContext ν κ → Pattern ν κ → Pattern ν κ
  | .hole, p => p
  | .inside frame inner, p => frame.fill (inner.fill p)

/-- A hole is at the top of the pattern, or it is the missing sub-pattern of a frame. -/
theorem PatternContext.eq_hole_or_exists_frame (C : PatternContext ν κ) :
    C = .hole ∨ ∃ (D : PatternContext ν κ) (f : PatternFrame ν κ),
      ∀ p, C.fill p = D.fill (f.fill p) := by
  induction C with
  | hole => exact .inl rfl
  | inside g inner ih =>
      right
      obtain rfl | ⟨D, f, hfill⟩ := ih
      · exact ⟨.hole, g, fun _ => rfl⟩
      · exact ⟨.inside g D, f, fun p => congrArg g.fill (hfill p)⟩

namespace Pattern

/-- A constant, a type, a comparison, or a pattern that is not described. -/
def isPlainTest : Pattern ν κ → Bool
  | .constant _ => true
  | .type _ => true
  | .relational _ _ => true
  | .undescribed => true
  | _ => false

/-- The type name in front of a pattern, its sub-patterns apart. -/
def typeName? : Pattern ν κ → Option ν
  | .constant (.name name) => some name
  | .type name => some name
  | .declaration name _ => some name
  | .recursive name _ _ _ => name
  | .relational _ (.name name) => some name
  | _ => none

/-- If the pattern is recursive, it has a positional clause or a clause of members. -/
def HasClause : Pattern ν κ → Prop
  | .recursive _ positional properties _ =>
    positional.isSome = true ∨ properties.isSome = true
  | _ => True

end Pattern

namespace Program

abbrev Frame := PatternFrame NodeId NodeId

abbrev Context := PatternContext NodeId NodeId

/-- The static type of the element or member that the missing sub-pattern is applied to. -/
def inputType? (P : Program) : Frame → Option TypeId
  | .element _ label before _ _ _ => (P.method? label).bind (·.elementType before.length)
  | .property _ _ _ member _ _ => P.memberType? member

/-! ## What the sub-pattern in a hole decides -/

theorem elementsAccept_append
    (P : Program) (method : Option DeconstructMethod) (index : Nat)
    (front back : List BoundPattern) :
    P.elementsAccept method index (front ++ back) =
      (P.elementsAccept method index front &&
        P.elementsAccept method (index + front.length) back) := by
  induction front generalizing index with
  | nil => simp [elementsAccept]
  | cons p front ih =>
      have hindex : index + 1 + front.length = index + (p :: front).length := by
        rw [List.length_cons]
        omega
      rw [List.cons_append, elementsAccept, elementsAccept, ih, hindex]
      simp only [Bool.and_assoc]

theorem membersAccept_append
    (P : Program) (front back : List (MemberPattern NodeId BoundPattern)) :
    P.membersAccept (front ++ back) = (P.membersAccept front && P.membersAccept back) := by
  induction front with
  | nil => simp [membersAccept]
  | cons m front ih =>
      rw [List.cons_append, membersAccept, membersAccept, ih]
      simp only [Bool.and_assoc]

@[simp]
theorem headAccepts_discard (P : Program) (member : Option TypeId) :
    P.headAccepts member .discard = true := rfl

/-- The clauses accept every value if they do so with the sub-pattern discarded, and the
sub-pattern accepts every value of what it is applied to. -/
theorem clausesAccept_fill_iff
    (P : Program) (f : Frame) (p : BoundPattern) :
    P.clausesAccept (f.fill p) = true ↔
      P.clausesAccept (f.fill .discard) = true ∧
        P.headAccepts (P.inputType? f) p = true ∧ P.clausesAccept p = true := by
  cases f with
  | element name label before after properties designation =>
      simp only [PatternFrame.fill, clausesAccept, positionalAccepts, inputType?,
        elementsAccept_append, elementsAccept, headAccepts_discard, Nat.zero_add,
        Bool.and_eq_true]
      tauto
  | property name positional before member after designation =>
      simp only [PatternFrame.fill, clausesAccept, propertiesAccept, inputType?,
        membersAccept_append, membersAccept, headAccepts_discard, Bool.and_eq_true]
      tauto

/-- What stands in front of a recursive pattern does not change with its sub-patterns. -/
theorem testedType?_fill
    (P : Program) (f : Frame) (p q : BoundPattern) :
    P.testedType? (f.fill p) = P.testedType? (f.fill q) := by
  rcases f with ⟨_ | node, _, _, _, _, _⟩ | ⟨_ | node, _, _, _, _, _⟩ <;> rfl

theorem headAccepts_fill
    (P : Program) (member : Option TypeId) (f : Frame) (p q : BoundPattern) :
    P.headAccepts member (f.fill p) = P.headAccepts member (f.fill q) := by
  rcases f with ⟨_ | node, _, _, _, _, _⟩ | ⟨_ | node, _, _, _, _, _⟩ <;> rfl

theorem testedType?_context
    (P : Program) (C : Context) (f : Frame) (p q : BoundPattern) :
    P.testedType? (C.fill (f.fill p)) = P.testedType? (C.fill (f.fill q)) := by
  cases C with
  | hole => exact P.testedType?_fill f p q
  | inside g inner => exact P.testedType?_fill g _ _

theorem headAccepts_context
    (P : Program) (member : Option TypeId) (C : Context) (f : Frame) (p q : BoundPattern) :
    P.headAccepts member (C.fill (f.fill p)) = P.headAccepts member (C.fill (f.fill q)) := by
  cases C with
  | hole => exact P.headAccepts_fill member f p q
  | inside g inner => exact P.headAccepts_fill member g _ _

/-- Clauses that accept every value do so at every place inside them. -/
theorem clausesAccept_of_context
    {P : Program} (C : Context) {p : BoundPattern}
    (h : P.clausesAccept (C.fill p) = true) : P.clausesAccept p = true := by
  induction C with
  | hole => exact h
  | inside g inner ih => exact ih ((P.clausesAccept_fill_iff g _).mp h).2.2

theorem headAccepts_of_context
    {P : Program} {C : Context} {f : Frame} {p : BoundPattern}
    (h : P.clausesAccept (C.fill (f.fill p)) = true) :
    P.headAccepts (P.inputType? f) p = true :=
  ((P.clausesAccept_fill_iff f p).mp (clausesAccept_of_context C h)).2.1

/-- A sub-pattern that restricts nothing can stand at the place of any other. -/
theorem clausesAccept_context_of_accepts
    {P : Program} {C : Context} {f : Frame} {p q : BoundPattern}
    (hhead : P.headAccepts (P.inputType? f) q = true) (hclauses : P.clausesAccept q = true)
    (h : P.clausesAccept (C.fill (f.fill p)) = true) :
    P.clausesAccept (C.fill (f.fill q)) = true := by
  induction C with
  | hole =>
      have hrest : P.clausesAccept (f.fill .discard) = true :=
        ((P.clausesAccept_fill_iff f p).mp h).1
      exact (P.clausesAccept_fill_iff f q).mpr ⟨hrest, hhead, hclauses⟩
  | inside g inner ih =>
      obtain ⟨hrest, houter, hinner⟩ := (P.clausesAccept_fill_iff g _).mp h
      rw [P.headAccepts_context _ inner f p q] at houter
      exact (P.clausesAccept_fill_iff g _).mpr ⟨hrest, houter, ih hinner⟩

theorem patternCovers_iff
    {P : Program} {p : BoundPattern} {target : TypeId} :
    P.patternCovers p target = true ↔
      (∃ t, P.testedType? p = some t ∧ P.types.converts target t = true) ∧
        P.clausesAccept p = true := by
  rw [patternCovers, Bool.and_eq_true, Option.any_eq_true]

theorem patternCovers_context_of_accepts
    {P : Program} {C : Context} {f : Frame} {p q : BoundPattern} {target : TypeId}
    (hhead : P.headAccepts (P.inputType? f) q = true) (hclauses : P.clausesAccept q = true)
    (h : P.patternCovers (C.fill (f.fill p)) target = true) :
    P.patternCovers (C.fill (f.fill q)) target = true := by
  obtain ⟨htested, haccepts⟩ := patternCovers_iff.mp h
  rw [P.testedType?_context C f p q] at htested
  exact patternCovers_iff.mpr
    ⟨htested, clausesAccept_context_of_accepts hhead hclauses haccepts⟩

/-! ## What a covering pattern rests on -/

theorem headAccepts_of_isPlainTest
    {P : Program} {member : Option TypeId} {p : BoundPattern} (h : p.isPlainTest = true) :
    P.headAccepts member p = false := by
  cases p with
  | constant | type | relational | undescribed => rfl
  | declaration | recursive | discard | var => exact absurd h Bool.false_ne_true

theorem widens_iff
    {P : Program} {node : NodeId} {member : Option TypeId} :
    P.widens node member = true ↔
      ∃ t u, member = some t ∧ P.namedType? node = some u ∧
        P.types.converts t u = true := by
  cases hname : P.namedType? node with
  | none => simp [widens, hname]
  | some u =>
      cases member with
      | none => simp [widens]
      | some t => simp [widens, hname]

/-- A name in front of an accepted sub-pattern is bound to a type that the static type of
the value converts to. -/
theorem exists_converts_of_headAccepts
    {P : Program} {member : Option TypeId} {p : BoundPattern} {node : NodeId}
    (h : P.headAccepts member p = true) (hnode : p.typeName? = some node) :
    ∃ t u, member = some t ∧ P.namedType? node = some u ∧ P.types.converts t u = true := by
  apply widens_iff.mp
  cases p with
  | declaration name designation =>
      rw [Pattern.typeName?, Option.some.injEq] at hnode
      exact hnode ▸ h
  | recursive name positional properties designation =>
      rw [Pattern.typeName?] at hnode
      subst hnode
      exact h
  | constant | type | relational | undescribed => exact absurd h Bool.false_ne_true
  | discard | var => simp [Pattern.typeName?] at hnode

theorem namedType?_of_testedType?
    {P : Program} {p : BoundPattern} {node : NodeId} {t : TypeId}
    (h : P.testedType? p = some t) (hnode : p.typeName? = some node) :
    P.namedType? node = some t := by
  cases p with
  | constant value =>
      cases value with
      | name name =>
          rw [Pattern.typeName?, Option.some.injEq] at hnode
          exact hnode ▸ h
      | null | literal => simp [Pattern.typeName?] at hnode
  | type name =>
      rw [Pattern.typeName?, Option.some.injEq] at hnode
      exact hnode ▸ h
  | declaration name designation =>
      rw [Pattern.typeName?, Option.some.injEq] at hnode
      exact hnode ▸ h
  | recursive name positional properties designation =>
      rw [Pattern.typeName?] at hnode
      subst hnode
      exact h
  | relational | undescribed | discard | var => simp [testedType?] at h

theorem hasClause_of_clausesAccept
    {P : Program} {p : BoundPattern} (h : P.clausesAccept p = true) : p.HasClause := by
  cases p with
  | recursive name positional properties designation =>
      rw [clausesAccept, Bool.and_eq_true, Bool.and_eq_true, Bool.or_eq_true] at h
      exact h.1.1
  | _ => trivial

/-- Where a pattern covers a type, every type name in it is bound. -/
theorem exists_namedType?_of_patternCovers
    {P : Program} {C : Context} {p : BoundPattern} {target : TypeId} {node : NodeId}
    (h : P.patternCovers (C.fill p) target = true) (hnode : p.typeName? = some node) :
    ∃ t, P.namedType? node = some t := by
  obtain ⟨⟨t, ht, -⟩, haccepts⟩ := patternCovers_iff.mp h
  -- The name is the one that is tested for, or it stands in front of a sub-pattern.
  obtain rfl | ⟨D, f, hfill⟩ := C.eq_hole_or_exists_frame
  · exact ⟨t, namedType?_of_testedType? ht hnode⟩
  · rw [hfill p] at haccepts
    obtain ⟨-, u, -, hu, -⟩ :=
      exists_converts_of_headAccepts (headAccepts_of_context haccepts) hnode
    exact ⟨u, hu⟩

/-- A test at any depth restricts the pattern, a variable or a discard in the place of a
sub-pattern does not, and a covering pattern names known types only, has a clause in each
recursive pattern, and tests a member for no type that its static type does not convert to. -/
theorem patternCovers_at_every_depth (P : Program) (target : TypeId) (C : Context) :
    (∀ (f : Frame) (p : BoundPattern), p.isPlainTest = true →
        P.patternCovers (C.fill (f.fill p)) target = false) ∧
      (∀ (f : Frame) (p : BoundPattern), P.patternCovers (C.fill (f.fill p)) target = true →
        P.patternCovers (C.fill (f.fill .discard)) target = true ∧
          ∀ designation, P.patternCovers (C.fill (f.fill (.var designation))) target = true) ∧
      (∀ p : BoundPattern, P.patternCovers (C.fill p) target = true →
        p.HasClause ∧ ∀ node, p.typeName? = some node → ∃ t, P.namedType? node = some t) ∧
      ∀ (f : Frame) (p : BoundPattern), P.patternCovers (C.fill (f.fill p)) target = true →
        ∀ node, p.typeName? = some node →
          ∃ t u, P.inputType? f = some t ∧ P.namedType? node = some u ∧
            P.types.converts t u = true := by
  refine ⟨?_, ?_, ?_, ?_⟩
  · intro f p hp
    apply Bool.eq_false_iff.mpr
    intro h
    have hhead := headAccepts_of_context (patternCovers_iff.mp h).2
    rw [headAccepts_of_isPlainTest hp] at hhead
    exact Bool.false_ne_true hhead
  · intro f p h
    exact ⟨patternCovers_context_of_accepts rfl (by rw [clausesAccept]) h,
      fun designation => patternCovers_context_of_accepts rfl (by rw [clausesAccept]) h⟩
  · intro p h
    have hclauses : P.clausesAccept p = true :=
      clausesAccept_of_context C (patternCovers_iff.mp h).2
    exact ⟨hasClause_of_clausesAccept hclauses,
      fun node hnode => exists_namedType?_of_patternCovers h hnode⟩
  · intro f p h node hnode
    have hhead := headAccepts_of_context (patternCovers_iff.mp h).2
    exact exists_converts_of_headAccepts hhead hnode

end Program

/-- The pattern of `nestedProgram` for `Root.Wrap`, two frames deep at its declaration. -/
def wrapContext : Program.Context :=
  .inside (.element (some 1) 2 [] [.var none] none none) .hole

def valueFrame : Program.Frame := .property none none [] 3 [] none

theorem nestedProgram_at_every_depth :
    nestedProgram.IsLoadedFrom nestedSnapshot ∧
      (nestedProgram.expressionAt? ⟨0, ⟨0, 6⟩⟩).bind (·.arms.head?.map (·.pattern)) =
        some (wrapContext.fill (valueFrame.fill (.declaration 4 (some "n")))) ∧
      nestedProgram.patternCovers
        (wrapContext.fill (valueFrame.fill (.declaration 4 (some "n")))) 7 = true ∧
      nestedProgram.patternCovers (wrapContext.fill (valueFrame.fill (.type 4))) 7 = false ∧
      nestedProgram.patternCovers (wrapContext.fill (valueFrame.fill .discard)) 7 = true ∧
      ∃ t u, nestedProgram.inputType? valueFrame = some t ∧
        nestedProgram.namedType? 4 = some u ∧ nestedProgram.types.converts t u = true :=
  have hcovers : nestedProgram.patternCovers
      (wrapContext.fill (valueFrame.fill (.declaration 4 (some "n")))) 7 = true := by decide
  have hdepth := nestedProgram.patternCovers_at_every_depth 7 wrapContext
  ⟨isLoadedFrom_nestedProgram, rfl, hcovers, hdepth.1 valueFrame (.type 4) rfl,
    (hdepth.2.1 valueFrame _ hcovers).1, hdepth.2.2.2 valueFrame _ hcovers 4 rfl⟩

end ClosedSwitch
