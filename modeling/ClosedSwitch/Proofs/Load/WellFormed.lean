import ClosedSwitch.Program.Load
import ClosedSwitch.Proofs.Load.Failure
import ClosedSwitch.Proofs.TypeTable.BaseChain
import ClosedSwitch.Proofs.TypeTable.Declarations

/-!
# Well-formed snapshots

What has to hold of a snapshot, part by part, said about its declarations alone: names
are distinct, references have a type, base types come to an end, and places are in order.
A snapshot that is not well formed has a first defect.
-/

namespace ClosedSwitch

/-- The names in a declaration, in the order base, interfaces, constructors,
properties, deconstructors. -/
def TypeShape.references (s : TypeShape String) : List String :=
  s.base.toList ++ s.interfaces
    ++ s.constructors.flatMap (fun c => c.parameters.flatMap Option.toList)
    ++ s.properties.flatMap (fun p => p.type.toList)
    ++ s.deconstructors.flatMap (fun ps => ps.flatMap Option.toList)

namespace Snapshot

/-- The names in all declarations, each with the name of the type that refers to
it. -/
def typeReferences (s : Snapshot) : List (String × String) :=
  (s.declaredTypes.map (·.shape)).flatMap fun shape =>
    shape.references.map fun name => (name, shape.name)

/-- One declared type is the base of another. -/
def IsBase (s : Snapshot) (name base : String) : Prop :=
  ∃ d ∈ s.declaredTypes, d.shape.name = name ∧ d.shape.base = some base

/-- The base types of the type called `name` never come to an end. -/
def HasEndlessBases (s : Snapshot) (name : String) : Prop :=
  ∃ chain : Nat → String, chain 0 = name ∧ ∀ n, s.IsBase (chain n) (chain (n + 1))

/-- The names in all extensions, the receiver of each first, with what refers to
them. -/
def extensionReferences (s : Snapshot) : List (String × String) :=
  s.extensions.flatMap fun e =>
    (e.receiver, "extension Deconstruct") ::
      (e.parameters.flatMap Option.toList).map fun name => (name, e.receiver)

/-- The spans of all switches and of their governing expressions, with the paths of
their files. -/
def switchSpans (s : Snapshot) : List (String × Span) :=
  s.files.flatMap fun f =>
    (f.switches.flatMap SwitchDecl.spans).map fun span => (f.path, span)

def paths (s : Snapshot) : List String := s.files.map (·.path)

/-- A diagnostic that has a file and whose span is ordered. -/
def Locates (s : Snapshot) (d : DiagnosticDecl) : Prop := d.file ∈ s.paths ∧ d.span.IsOrdered

instance (s : Snapshot) : DecidablePred s.Locates :=
  fun _ => inferInstanceAs (Decidable (_ ∧ _))

def NamesDistinct (s : Snapshot) : Prop := s.typeNames.Nodup

def ReferencesResolve (s : Snapshot) : Prop := ∀ r ∈ s.typeReferences, r.1 ∈ s.typeNames

def BasesEnd (s : Snapshot) : Prop := ∀ name ∈ s.typeNames, ¬ s.HasEndlessBases name

def ExtensionsResolve (s : Snapshot) : Prop :=
  ∀ r ∈ s.extensionReferences, r.1 ∈ s.typeNames

def SpansOrdered (s : Snapshot) : Prop := ∀ r ∈ s.switchSpans, r.2.IsOrdered

def DiagnosticsLocated (s : Snapshot) : Prop := ∀ d ∈ s.diagnostics, s.Locates d

structure WellFormed (s : Snapshot) : Prop where
  names : s.NamesDistinct
  references : s.ReferencesResolve
  bases : s.BasesEnd
  extensions : s.ExtensionsResolve
  spans : s.SpansOrdered
  diagnostics : s.DiagnosticsLocated

/-- The defect that comes first: the first one of its group, where the groups before it
have none. -/
inductive FirstDefect (s : Snapshot) : LoadError → Prop
  | repeatedName {before after : List String} {name : String}
      (split : s.typeNames = before ++ name :: after) (distinct : before.Nodup)
      (repeated : name ∈ before) :
      FirstDefect s (.duplicateType name)
  | unresolvedReference {name owner : String} (names : s.NamesDistinct)
      (first : IsFirst (fun r => r.1 ∉ s.typeNames) s.typeReferences (name, owner)) :
      FirstDefect s (.unknownType name owner)
  | endlessBases {name : String} (names : s.NamesDistinct)
      (references : s.ReferencesResolve)
      (first : IsFirst s.HasEndlessBases s.typeNames name) :
      FirstDefect s (.cyclicBase name)
  | unresolvedExtension {name owner : String} (names : s.NamesDistinct)
      (references : s.ReferencesResolve) (bases : s.BasesEnd)
      (first : IsFirst (fun r => r.1 ∉ s.typeNames) s.extensionReferences (name, owner)) :
      FirstDefect s (.unknownType name owner)
  | disorderedSwitch {path : String} {span : Span} (names : s.NamesDistinct)
      (references : s.ReferencesResolve) (bases : s.BasesEnd)
      (extensions : s.ExtensionsResolve)
      (first : IsFirst (fun r => ¬ r.2.IsOrdered) s.switchSpans (path, span)) :
      FirstDefect s (.invertedSpan path span)
  | missingFile {d : DiagnosticDecl} (names : s.NamesDistinct)
      (references : s.ReferencesResolve) (bases : s.BasesEnd)
      (extensions : s.ExtensionsResolve) (spans : s.SpansOrdered)
      (first : IsFirst (fun d => ¬ s.Locates d) s.diagnostics d)
      (missing : d.file ∉ s.paths) :
      FirstDefect s (.unknownFile d.file)
  | disorderedDiagnostic {d : DiagnosticDecl} (names : s.NamesDistinct)
      (references : s.ReferencesResolve) (bases : s.BasesEnd)
      (extensions : s.ExtensionsResolve) (spans : s.SpansOrdered)
      (first : IsFirst (fun d => ¬ s.Locates d) s.diagnostics d)
      (found : d.file ∈ s.paths) :
      FirstDefect s (.invertedSpan d.file d.span)

end Snapshot

/-! ## Base types by name -/

theorem TypeShape.base_of_resolve
    {require : String → Except LoadError TypeId}
    {s : TypeShape String} {r : TypeShape TypeId}
    (h : s.resolve require = .ok r) : s.base.mapM require = .ok r.base := by
  obtain ⟨base, hbase, hrest⟩ := bind_eq_ok_iff.mp h
  simp only [bind_eq_ok_iff] at hrest
  obtain ⟨_, _, _, _, _, _, _, _, hr⟩ := hrest
  simp only [pure, Except.pure, Except.ok.injEq] at hr
  exact hr ▸ hbase

namespace TypeTable

theorem Holds.base?_eq_some_iff
    {T : TypeTable} {t b : TypeId} {d : DeclaredType} (h : T.Holds t d) :
    T.base? t = some b ↔ ∃ name, d.shape.base = some name ∧ T.find? name = some b := by
  have hresolve : d.shape.base.mapM (requireType T.find? d.shape.name) =
      .ok (T.base? t) := TypeShape.base_of_resolve h.shape
  cases hbase : d.shape.base with
  | none =>
      rw [hbase] at hresolve
      have hnone : none = T.base? t := Except.ok.inj hresolve
      simp [← hnone]
  | some name =>
      rw [hbase] at hresolve
      obtain ⟨u, hrequire, hsome⟩ := bind_eq_ok_iff.mp hresolve
      have hu : some u = T.base? t := Except.ok.inj hsome
      have hfind : T.find? name = some u := find?_of_requireType hrequire
      simp [← hu, hfind]

theorem Represents.builtin_le_of_base?
    {T : TypeTable} {decls : List TypeDecl} (hT : T.Represents decls)
    {t b : TypeId} (h : T.base? t = some b) : builtinTypes.length ≤ t := by
  by_contra hlt
  rw [Nat.not_le] at hlt
  have hbases : ∀ e ∈ builtinTypes, e.base = none := by decide
  rw [base?, hbases _ (List.mem_of_getElem? (hT.getElem?_builtinTypes hlt))] at h
  exact absurd h (Option.some_ne_none b).symm

theorem Represents.base?_eq_some_iff
    {T : TypeTable} {s : Snapshot} (hT : T.Represents s.types)
    {t b : TypeId} (ht : t < T.size) :
    T.base? t = some b ↔ b < T.size ∧ s.IsBase (T.name t) (T.name b) := by
  constructor
  · intro hbase
    obtain ⟨d, hd, hholds⟩ := hT.exists_holds (hT.builtin_le_of_base? hbase) ht
    obtain ⟨name, hname, hfind⟩ := hholds.base?_eq_some_iff.mp hbase
    obtain ⟨hb, rfl⟩ := hT.find?_eq_some_iff.mp hfind
    exact ⟨hb, d, hd, hholds.name_eq.symm, hname⟩
  · rintro ⟨hb, d, hd, hname, hbase⟩
    obtain ⟨u, -, hu, hholds⟩ := hT.exists_number hd
    have htu : t = u := hT.eq_of_name_eq ht hu (hname.symm.trans hholds.name_eq.symm)
    subst htu
    exact hholds.base?_eq_some_iff.mpr ⟨T.name b, hbase, hT.find?_name hb⟩

theorem Represents.hasEndlessBases_iff
    {T : TypeTable} {s : Snapshot} (hT : T.Represents s.types)
    {t : TypeId} (ht : t < T.size) :
    T.HasEndlessBases t ↔ s.HasEndlessBases (T.name t) := by
  constructor
  · rintro ⟨chain, rfl, hchain⟩
    refine ⟨fun n => T.name (chain n), rfl, ?_⟩
    intro n
    exact ((hT.base?_eq_some_iff (lt_size_of_base? (hchain n))).mp (hchain n)).2
  · rintro ⟨chain, hstart, hchain⟩
    -- The name of every type in the chain is declared, so it has a number.
    have hnumber : ∀ n, ∃ u, u < T.size ∧ T.name u = chain n := by
      intro n
      obtain ⟨d, hd, hname, -⟩ := hchain n
      obtain ⟨u, -, hu, hholds⟩ := hT.exists_number hd
      exact ⟨u, hu, hholds.name_eq.trans hname⟩
    choose u hu hname using hnumber
    refine ⟨u, hT.eq_of_name_eq (hu 0) ht ((hname 0).trans hstart), ?_⟩
    intro n
    rw [hT.base?_eq_some_iff (hu n), hname, hname]
    exact ⟨hu (n + 1), hchain n⟩

end TypeTable

end ClosedSwitch
