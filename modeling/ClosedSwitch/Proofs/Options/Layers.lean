import ClosedSwitch.Program.Options
import ClosedSwitch.Proofs.Binding
import ClosedSwitch.Proofs.Load.Failure
import ClosedSwitch.Proofs.Suppression.Locate
import Mathlib.Data.List.TakeWhile

/-!
# Layers of options

An option of a file is settled by the first layer that has its key: the options of the
snapshot, those of the configuration for the path of the file, and those of the
configuration for all files.  Only then is the text looked at, so a layer below never
makes up for a text above that means nothing.
-/

namespace ClosedSwitch

/-! ## Texts that spell true -/

namespace Text

theorem trimRight_append_blanks (cs : List Char) :
    ∃ after, cs = trimRight cs ++ after ∧ ∀ c ∈ after, isBlank c = true := by
  refine ⟨(cs.reverse.takeWhile isBlank).reverse, ?_, ?_⟩
  · rw [trimRight, ← List.reverse_append, List.takeWhile_append_dropWhile,
      List.reverse_reverse]
  · intro c hc
    rw [List.mem_reverse] at hc
    exact List.all_eq_true.mp List.all_takeWhile c hc

theorem exists_blanks_around_trim (cs : List Char) :
    ∃ before after, cs = before ++ trim cs ++ after ∧
      (∀ c ∈ before, isBlank c = true) ∧ ∀ c ∈ after, isBlank c = true := by
  obtain ⟨after, hafter, hblank⟩ := trimRight_append_blanks (cs.dropWhile isBlank)
  refine ⟨cs.takeWhile isBlank, after, ?_, ?_, hblank⟩
  · rw [trim, List.append_assoc, ← hafter, List.takeWhile_append_dropWhile]
  · exact List.all_eq_true.mp List.all_takeWhile

theorem dropWhile_isBlank_eq_self
    {cs : List Char} (hcs : ∀ c ∈ cs, isBlank c = false) : cs.dropWhile isBlank = cs := by
  cases cs with
  | nil => rfl
  | cons c rest => exact List.dropWhile_cons_of_neg (by simp [hcs c List.mem_cons_self])

/-- Trimming takes away the blanks around characters that are not blank. -/
theorem trim_of_blanks_around
    {before letters after : List Char} (hbefore : ∀ c ∈ before, isBlank c = true)
    (hletters : ∀ c ∈ letters, isBlank c = false)
    (hafter : ∀ c ∈ after, isBlank c = true) :
    trim (before ++ letters ++ after) = letters := by
  have hright : trimRight (letters ++ after) = letters := by
    rw [trimRight, List.reverse_append,
      List.dropWhile_append_of_pos fun c hc => hafter c (List.mem_reverse.mp hc),
      dropWhile_isBlank_eq_self fun c hc => hletters c (List.mem_reverse.mp hc),
      List.reverse_reverse]
  rw [trim, List.append_assoc, List.dropWhile_append_of_pos hbefore]
  cases letters with
  | nil =>
      rw [List.nil_append, List.dropWhile_eq_nil_iff.mpr hafter]
      rfl
  | cons c rest =>
      rw [List.cons_append, List.dropWhile_cons_of_neg (by simp [hletters c])]
      exact hright

end Text

theorem toNat_toLower (c : Char) :
    c.toLower.toNat = if 65 ≤ c.toNat ∧ c.toNat ≤ 90 then c.toNat + 32 else c.toNat := by
  by_cases hupper : 65 ≤ c.toNat ∧ c.toNat ≤ 90
  · have hval : c.val ≥ 'A'.val ∧ c.val ≤ 'Z'.val := hupper
    have hlower : c.toLower.toNat = (c.toNat + 32) % 2 ^ 32 :=
      congrArg Char.toNat (dif_pos hval)
    rw [if_pos hupper, hlower]
    omega
  · have hval : ¬ (c.val ≥ 'A'.val ∧ c.val ≤ 'Z'.val) := hupper
    rw [if_neg hupper]
    exact congrArg Char.toNat (dif_neg hval)

theorem toNat_toUpper
    {l : Char} (hl : l.isLower = true) :
    97 ≤ l.toNat ∧ l.toNat ≤ 122 ∧ l.toUpper.toNat + 32 = l.toNat := by
  obtain ⟨hfirst, hlast⟩ := Bool.and_eq_true_iff.mp hl
  have hval : 'a'.val ≤ l.val ∧ l.val ≤ 'z'.val :=
    ⟨of_decide_eq_true hfirst, of_decide_eq_true hlast⟩
  have hrange : 97 ≤ l.toNat ∧ l.toNat ≤ 122 := hval
  -- The distance between the cases is added as a word, so going up wraps around.
  have hdistance : ('A'.val - 'a'.val).toNat = 2 ^ 32 - 32 := by decide
  have hupper : l.toUpper = _ := dif_pos hval
  have hnat : l.toUpper.toNat = (l.toNat + (2 ^ 32 - 32)) % 2 ^ 32 := by
    rw [hupper, ← hdistance]
    exact UInt32.toNat_add _ _
  omega

/-- Two characters become one small letter: the letter itself and its capital. -/
theorem toLower_eq_iff
    {c l : Char} (hl : l.isLower = true) : c.toLower = l ↔ c = l ∨ c = l.toUpper := by
  obtain ⟨hfirst, hlast, hupper⟩ := toNat_toUpper hl
  simp only [← Char.toNat_inj, toNat_toLower]
  split <;> omega

theorem map_toLower_eq_iff
    {letters word : List Char} (hword : ∀ l ∈ word, l.isLower = true) :
    letters.map Char.toLower = word ↔
      List.Forall₂ (fun c l => c = l ∨ c = l.toUpper) letters word := by
  induction word generalizing letters with
  | nil => simp
  | cons l word ih =>
      rw [List.forall_mem_cons] at hword
      cases letters with
      | nil => simp
      | cons c letters =>
          rw [List.map_cons, List.cons.injEq, toLower_eq_iff hword.1, ih hword.2,
            List.forall₂_cons]

/-- The letters of the word, each of them small or capital, with blanks around them. -/
def Spells (word : List Char) (text : String) : Prop :=
  ∃ before letters after, text.toList = before ++ letters ++ after ∧
    (∀ c ∈ before, Text.isBlank c = true) ∧ (∀ c ∈ after, Text.isBlank c = true) ∧
    List.Forall₂ (fun c l => c = l ∨ c = l.toUpper) letters word

theorem not_isBlank_of_spelled
    {letters : List Char}
    (h : List.Forall₂ (fun c l => c = l ∨ c = l.toUpper) letters ['t', 'r', 'u', 'e']) :
    ∀ c ∈ letters, Text.isBlank c = false := by
  have hword : ∀ l ∈ ['t', 'r', 'u', 'e'],
      (!Text.isBlank l && !Text.isBlank l.toUpper) = true := List.all_eq_true.mp (by decide)
  simp only [Bool.and_eq_true, Bool.not_eq_true'] at hword
  intro c hc
  obtain ⟨k, hk⟩ := List.getElem?_of_mem hc
  obtain ⟨l, hl, hletter⟩ := exists_right_of_forall₂ h hk
  rcases hletter with rfl | rfl
  · exact (hword c (List.mem_of_getElem? hl)).1
  · exact (hword l (List.mem_of_getElem? hl)).2

theorem spellsTrue_iff (text : String) :
    spellsTrue text = true ↔ Spells ['t', 'r', 'u', 'e'] text := by
  have hlower : ∀ l ∈ ['t', 'r', 'u', 'e'], l.isLower = true :=
    List.all_eq_true.mp (by decide)
  rw [spellsTrue, decide_eq_true_eq, map_toLower_eq_iff hlower]
  constructor
  · intro hletters
    obtain ⟨before, after, htext, hbefore, hafter⟩ :=
      Text.exists_blanks_around_trim text.toList
    exact ⟨before, _, after, htext, hbefore, hafter, hletters⟩
  · rintro ⟨before, letters, after, htext, hbefore, hafter, hletters⟩
    rw [htext, Text.trim_of_blanks_around hbefore (not_isBlank_of_spelled hletters) hafter]
    exact hletters

/-! ## The layer that settles an option -/

def HasKey (options : Options) (key : String) : Prop := ∃ text, (key, text) ∈ options

/-- The first entry for the key has the text. -/
def FirstEntry (options : Options) (key text : String) : Prop :=
  ∃ before after, options = before ++ (key, text) :: after ∧ ¬ HasKey before key

theorem lookup_eq_none_iff
    {options : Options} {key : String} : options.lookup key = none ↔ ¬ HasKey options key := by
  rw [List.lookup_eq_none_iff]
  constructor
  · rintro hnone ⟨text, hmem⟩
    simpa using hnone _ hmem
  · rintro hmissing ⟨k, text⟩ hmem
    rw [bne_iff_ne]
    rintro rfl
    exact hmissing ⟨text, hmem⟩

theorem lookup_eq_some_iff
    {options : Options} {key text : String} :
    options.lookup key = some text ↔ FirstEntry options key text := by
  rw [List.lookup_eq_some_iff]
  refine exists_congr fun before => exists_congr fun after => and_congr_right fun _ => ?_
  rw [← lookup_eq_none_iff, List.lookup_eq_none_iff]

/-- The layers in which an option of a file is looked up, one after another. -/
def optionLayers (f : FileDecl) (c : Config) : List Options :=
  [f.options, (c.files.lookup f.path).getD [], c.options]

/-- The first layer that has the key holds the text. -/
def SettledAs (layers : List Options) (key text : String) : Prop :=
  ∃ above layer below, layers = above ++ layer :: below ∧
    (∀ options ∈ above, ¬ HasKey options key) ∧ FirstEntry layer key text

theorem findSome?_lookup_eq_some_iff
    {layers : List Options} {key text : String} :
    layers.findSome? (·.lookup key) = some text ↔ SettledAs layers key text := by
  rw [List.findSome?_eq_some_iff]
  simp only [lookup_eq_some_iff, lookup_eq_none_iff, SettledAs, and_comm]

/-- Layers below one that has the key make no difference. -/
theorem findSome?_lookup_eq_of_hasKey
    {above below below' : List Options} {layer : Options} {key : String}
    (h : HasKey layer key) :
    (above ++ layer :: below).findSome? (·.lookup key) =
      (above ++ layer :: below').findSome? (·.lookup key) := by
  obtain ⟨text, htext⟩ : ∃ text, layer.lookup key = some text := by
    rw [← Option.ne_none_iff_exists']
    exact fun hnone => lookup_eq_none_iff.mp hnone h
  simp only [List.findSome?_append, List.findSome?_cons, htext]

namespace Program

variable {P : Program} {s : Snapshot}

theorem Represents.option?_eq (h : P.Represents s) (file : Nat) (key : String) :
    P.option? file key =
      (s.files[file]?).bind fun f => (optionLayers f P.config).findSome? (·.lookup key) := by
  have hfiles : List.Forall₂ (fun f f' => f'.path = f.path ∧ f'.options = f.options)
      s.files P.files := h.forall₂_files fun _ _ _ => ⟨rfl, rfl⟩
  refine bind_eq_of_rel ?_ (rel_getElem?_of_forall₂ hfiles file)
  rintro f f' ⟨hpath, hoptions⟩
  simp only [hpath, hoptions, Config.lookup, optionLayers, findSome?_cons_eq_or,
    List.findSome?_nil, Option.or_none]
  cases P.config.files.lookup f.path <;> rfl

/-- Records may be roots in a file exactly when the first layer that has the key holds a
text that spells true. -/
theorem Represents.recordHierarchiesAllowed_iff (h : P.Represents s) (file : Nat) :
    P.recordHierarchiesAllowed file = true ↔
      ∃ f, s.files[file]? = some f ∧
        ∃ text, SettledAs (optionLayers f P.config) recordHierarchiesKey text ∧
          Spells ['t', 'r', 'u', 'e'] text := by
  rw [recordHierarchiesAllowed, Option.any_eq_true, h.option?_eq]
  simp only [Option.bind_eq_some_iff, findSome?_lookup_eq_some_iff, spellsTrue_iff]
  constructor
  · rintro ⟨text, ⟨f, hf, hsettled⟩, hspells⟩
    exact ⟨f, hf, text, hsettled, hspells⟩
  · rintro ⟨f, hf, text, hsettled, hspells⟩
    exact ⟨text, ⟨f, hf, hsettled⟩, hspells⟩

end Program

end ClosedSwitch
