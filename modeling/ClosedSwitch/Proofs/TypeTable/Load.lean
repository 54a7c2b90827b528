import ClosedSwitch.TypeTable.Load
import ClosedSwitch.Proofs.Lists
import ClosedSwitch.Proofs.TypeTable.Conversion

/-!
# What a loaded type table represents

A table that loads holds the built-in types and the declared ones in the order
of their places, each with its references resolved by name.  Names are pairwise
distinct, so looking a name up leads back to the type that has it.
-/

namespace ClosedSwitch

/-! ## What a loaded table consists of -/

theorem firstRepeated?_eq_none_iff
    {seen names : List String} :
    firstRepeated? seen names = none ↔
      names.Nodup ∧ ∀ name ∈ names, name ∉ seen := by
  induction names generalizing seen with
  | nil => simp [firstRepeated?]
  | cons name rest ih =>
      by_cases hseen : name ∈ seen
      · simp [firstRepeated?, hseen]
      · simp only [firstRepeated?, hseen, if_false, ih, List.nodup_cons,
          List.mem_cons, not_or]
        grind

theorem find?_of_requireType
    {find? : String → Option TypeId} {owner name : String} {t : TypeId}
    (h : requireType find? owner name = .ok t) : find? name = some t := by
  rw [requireType] at h
  split at h
  next u hu => exact hu.trans (congrArg some (Except.ok.inj h))
  · simp at h

theorem TypeShape.name_of_resolve
    {require : String → Except LoadError TypeId}
    {s : TypeShape String} {r : TypeShape TypeId}
    (h : s.resolve require = .ok r) : r.name = s.name := by
  simp only [resolve, bind_eq_ok_iff] at h
  obtain ⟨_, _, _, _, _, _, _, _, _, _, hr⟩ := h
  simp only [pure, Except.pure, Except.ok.injEq] at hr
  exact hr ▸ rfl

theorem PlacedType.name_of_define
    {find? : String → Option TypeId} {p : PlacedType} {e : TypeEntry}
    (h : p.define find? = .ok e) : e.name = p.shape.name := by
  obtain ⟨r, hr, he⟩ := bind_eq_ok_iff.mp h
  simp only [pure, Except.pure, Except.ok.injEq] at he
  rw [← he]
  exact TypeShape.name_of_resolve hr

namespace TypeTable

/-- The declared types of a snapshot at their places in the table. -/
def placed (decls : List TypeDecl) : List PlacedType :=
  TypeDecl.placeAll none builtinTypes.length decls

/-- A table of the built-in types and the given declarations, in which no name
is declared twice and every reference is resolved. -/
structure Represents (T : TypeTable) (decls : List TypeDecl) : Prop where
  entries_eq : ∃ entries,
    T.entries = (builtinTypes ++ entries).toArray ∧
      List.Forall₂ (fun p e => PlacedType.define T.find? p = .ok e)
        (placed decls) entries
  names_nodup : T.names.Nodup

theorem names_of_forall₂_define
    {find? : String → Option TypeId} {ps : List PlacedType} {es : List TypeEntry}
    (h : List.Forall₂ (fun p e => PlacedType.define find? p = .ok e) ps es) :
    es.map (·.name) = ps.map (·.shape.name) := by
  induction h with
  | nil => rfl
  | cons hdefine _ ih =>
      simp only [List.map_cons, ih, PlacedType.name_of_define hdefine]

/-- Resolving every placed type gives a table of the declarations, whether or not
its base types come to an end. -/
theorem represents_of_mapM_define
    {decls : List TypeDecl} {known : List String} {entries : List TypeEntry}
    (hknown : known = builtinTypes.map (·.name) ++ (placed decls).map (·.shape.name))
    (hnodup : known.Nodup)
    (hentries : (placed decls).mapM (PlacedType.define known.idxOf?) = .ok entries) :
    Represents ⟨(builtinTypes ++ entries).toArray⟩ decls := by
  have hdefined := forall₂_of_mapM_eq_ok hentries
  have hnames : names ⟨(builtinTypes ++ entries).toArray⟩ = known := by
    simp [names, hknown, names_of_forall₂_define hdefined]
  have hfind : find? ⟨(builtinTypes ++ entries).toArray⟩ = known.idxOf? := by
    funext name
    rw [find?, hnames]
  refine ⟨⟨entries, rfl, ?_⟩, ?_⟩
  · rw [hfind]
    exact hdefined
  · rw [hnames]
    exact hnodup

theorem represents_of_load
    {decls : List TypeDecl} {T : TypeTable} (h : load decls = .ok T) :
    T.Represents decls := by
  simp only [load] at h
  split at h
  · simp at h
  next hrepeated =>
    obtain ⟨entries, hentries, hcycle⟩ := bind_eq_ok_iff.mp h
    split at hcycle
    · simp at hcycle
    · simp only [Except.ok.injEq] at hcycle
      rw [← hcycle]
      exact represents_of_mapM_define rfl (firstRepeated?_eq_none_iff.mp hrepeated).1
        hentries

theorem Represents.lt_size_of_builtin
    {T : TypeTable} {decls : List TypeDecl} (h : T.Represents decls)
    {t : TypeId} (ht : t < builtinTypes.length) : t < T.size := by
  obtain ⟨entries, hentries, -⟩ := h.entries_eq
  rw [size, hentries, List.size_toArray, List.length_append]
  exact Nat.lt_add_right _ ht

theorem Represents.getElem?_builtinTypes
    {T : TypeTable} {decls : List TypeDecl} (h : T.Represents decls)
    {t : TypeId} (ht : t < builtinTypes.length) :
    builtinTypes[t]? = some (T.entry t) := by
  obtain ⟨entries, hentries, -⟩ := h.entries_eq
  have hget := getElem?_entries_of_lt_size (h.lt_size_of_builtin ht)
  rwa [hentries, List.getElem?_toArray, List.getElem?_append_left ht] at hget

theorem Represents.supertypes_object
    {T : TypeTable} {decls : List TypeDecl} (h : T.Represents decls) :
    T.supertypes object = [] := by
  obtain ⟨entries, hentries, _⟩ := h.entries_eq
  simp [supertypes, entry, hentries, object, builtinTypes]

theorem length_names (T : TypeTable) : T.names.length = T.size := by
  simp [names, size]

theorem getElem?_names_of_lt_size
    {T : TypeTable} {t : TypeId} (ht : t < T.size) :
    T.names[t]? = some (T.name t) := by
  simp [names, name, getElem?_entries_of_lt_size ht]

theorem Represents.find?_eq_some_iff
    {T : TypeTable} {decls : List TypeDecl} (h : T.Represents decls)
    {name : String} {t : TypeId} :
    T.find? name = some t ↔ t < T.size ∧ T.name t = name := by
  have hget : ∀ (u : Nat) (hu : u < T.names.length), T.names[u] = T.name u := by
    intro u hu
    have hname := getElem?_names_of_lt_size (T.length_names ▸ hu)
    rwa [List.getElem?_eq_getElem hu, Option.some.injEq] at hname
  rw [find?, List.idxOf?_eq_some_iff]
  constructor
  · rintro ⟨hlt, hname, -⟩
    exact ⟨T.length_names ▸ hlt, hget t hlt ▸ hname⟩
  · rintro ⟨ht, hname⟩
    have hlt : t < T.names.length := T.length_names.symm ▸ ht
    have heq : T.names[t] = name := (hget t hlt).trans hname
    refine ⟨hlt, heq, ?_⟩
    intro j hj hsame
    have := (List.Nodup.getElem_inj_iff h.names_nodup).mp (hsame.trans heq.symm)
    omega

theorem Represents.find?_name
    {T : TypeTable} {decls : List TypeDecl} (h : T.Represents decls)
    {t : TypeId} (ht : t < T.size) :
    T.find? (T.name t) = some t :=
  h.find?_eq_some_iff.mpr ⟨ht, rfl⟩

theorem Represents.eq_of_name_eq
    {T : TypeTable} {decls : List TypeDecl} (hT : T.Represents decls)
    {t u : TypeId} (ht : t < T.size) (hu : u < T.size) (h : T.name t = T.name u) :
    t = u := by
  have hfind := hT.find?_name ht
  rw [h, hT.find?_name hu, Option.some.injEq] at hfind
  exact hfind.symm

end TypeTable

end ClosedSwitch
