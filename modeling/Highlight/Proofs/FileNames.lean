import Highlight.Bundled
import Highlight.Definition.File
import Highlight.FileName
import Mathlib.Data.List.TakeWhile

/-! The name that a path leads to, with its stem and its extension, told by how the path is written, and what the
    extensions stand for. -/

namespace Highlight

namespace FileName

/-- Slashes, and steps behind a slash that lead nowhere. -/
inductive Trailer : List Char → Prop
  | nil : Trailer []
  | slash {cs : List Char} : Trailer cs → Trailer (cs ++ ['/'])
  | here {cs : List Char} : Trailer cs → Trailer (cs ++ ['/', '.'])

/-- The name may be that of a file. -/
def Proper (name : List Char) : Prop := '/' ∉ name ∧ name ≠ [] ∧ name ≠ ['.'] ∧ name ≠ ['.', '.']

/-- A path leads to a name if there are only directories before it, and there is nothing behind it that leads
    elsewhere. -/
def LeadsTo (path name : String) : Prop :=
  Proper name.toList ∧ ∃ directories trailer, path.toList = directories ++ name.toList ++ trailer ∧
    (directories = [] ∨ directories.getLast? = some '/') ∧ Trailer trailer

/-- The name consists of a stem and an extension behind its last dot. -/
def Splits (name stem extension : String) : Prop :=
  name.toList = stem.toList ++ '.' :: extension.toList ∧ stem.toList ≠ [] ∧ '.' ∉ extension.toList

/-- The stem of a name is what stands before its extension, or all of it if it has none. -/
inductive IsStem (name : String) : String → Prop
  | split {stem extension : String} : Splits name stem extension → IsStem name stem
  | whole : (∀ stem extension, ¬Splits name stem extension) → IsStem name name

/-! ### The name -/

/-- What is left of a path behind which nothing leads elsewhere: it does not end with a slash, or with a step that leads
    nowhere. -/
theorem trim_cases (cs : List Char) : ∃ trailer, Trailer trailer ∧ cs = trailer.reverse ++ trim cs ∧
    (trim cs).head? ≠ some '/' ∧ ∀ rest, trim cs ≠ '.' :: '/' :: rest := by
  fun_induction trim cs with
  | case1 rest ih =>
    obtain ⟨trailer, htrailer, hrest, hslash, hhere⟩ := ih
    exact ⟨trailer ++ ['/'], .slash htrailer, by simpa using hrest, hslash, hhere⟩
  | case2 rest ih =>
    obtain ⟨trailer, htrailer, hrest, hslash, hhere⟩ := ih
    exact ⟨trailer ++ ['/', '.'], .here htrailer, by simpa using hrest, hslash, hhere⟩
  | case3 rest hslash hhere =>
    refine ⟨[], .nil, rfl, fun h => ?_, hhere⟩
    obtain ⟨tail, rfl⟩ := List.head?_eq_some_iff.mp h
    exact hslash tail rfl

theorem trim_append {trailer : List Char} (h : Trailer trailer) (cs : List Char) :
    trim (trailer.reverse ++ cs) = trim cs := by
  induction h with
  | nil => rfl
  | slash _ ih | here _ ih => simpa [trim] using ih

/-- A proper name is left as it stands. -/
theorem trim_name {name : List Char} (h : Proper name) (front : List Char) :
    trim (name.reverse ++ front) = name.reverse ++ front := by
  obtain ⟨hslash, hne, hdot, -⟩ := h
  have hreverse : ∀ c ∈ name.reverse, c ≠ '/' := fun c hc heq => hslash (heq ▸ List.mem_reverse.mp hc)
  have hdot' : name.reverse ≠ ['.'] := fun heq => hdot (List.reverse_inj.mp heq)
  cases hname : name.reverse with
  | nil => exact absurd (List.reverse_eq_nil_iff.mp hname) hne
  | cons c rest =>
    rw [hname] at hreverse hdot'
    obtain ⟨hc, hrest⟩ := List.forall_mem_cons.mp hreverse
    cases rest with
    | nil => exact trim.eq_3 _ (by simp [hc]) (by simp_all)
    | cons d rest =>
      have hd := (List.forall_mem_cons.mp hrest).1
      exact trim.eq_3 _ (by simp [hc]) (by simp [hd])

theorem not_slash_of_takeWhile {cs : List Char} : '/' ∉ cs.takeWhile (· != '/') := fun h => by
  simpa using List.mem_takeWhile_imp h

theorem last?_eq {path name : String} :
    last? path = some name ↔
      Proper name.toList ∧ (trim path.toList.reverse).takeWhile (· != '/') = name.toList.reverse := by
  have hslash := @not_slash_of_takeWhile (trim path.toList.reverse)
  unfold last?
  generalize (trim path.toList.reverse).takeWhile (· != '/') = cs at hslash
  have hback : cs = name.toList.reverse ↔ cs.reverse = name.toList := by
    rw [← List.reverse_inj, List.reverse_reverse]
  rw [hback]
  split
  · simp only [reduceCtorEq, false_iff, not_and, List.reverse_nil]
    exact fun hproper heq => hproper.2.1 heq.symm
  · simp only [reduceCtorEq, false_iff, not_and, List.reverse_singleton]
    exact fun hproper heq => hproper.2.2.1 heq.symm
  · simp only [reduceCtorEq, false_iff, not_and]
    exact fun hproper heq => hproper.2.2.2 heq.symm
  · rename_i hnil hdot hdots
    rw [Option.some_inj, ← String.toList_inj, String.toList_ofList]
    refine ⟨fun heq => ⟨heq ▸ ⟨?_, ?_, ?_, ?_⟩, heq⟩, fun h => h.2⟩
    · simpa using hslash
    · exact fun h => hnil (List.reverse_eq_nil_iff.mp h)
    · exact fun h => hdot (by simpa using h)
    · exact fun h => hdots (by simpa using congrArg List.reverse h)

theorem last?_eq_some {path name : String} : last? path = some name ↔ LeadsTo path name := by
  rw [last?_eq, LeadsTo]
  refine and_congr_right fun hproper => ⟨fun h => ?_, ?_⟩
  · obtain ⟨trailer, htrailer, hpath, -, -⟩ := trim_cases path.toList.reverse
    have hsplit := @List.takeWhile_append_dropWhile _ (· != '/') (trim path.toList.reverse)
    rw [h] at hsplit
    refine ⟨((trim path.toList.reverse).dropWhile (· != '/')).reverse, trailer, ?_, ?_, htrailer⟩
    · have hreverse := congrArg List.reverse hpath
      rw [← hsplit] at hreverse
      simpa using hreverse
    · cases hdrop : (trim path.toList.reverse).dropWhile (· != '/') with
      | nil => exact Or.inl rfl
      | cons c rest =>
        have hc : c = '/' := by
          have := @List.head?_dropWhile_not _ (· != '/') (trim path.toList.reverse)
          rw [hdrop] at this
          simpa using this
        exact Or.inr (by simp [hc])
  · rintro ⟨directories, trailer, hpath, hdirectories, htrailer⟩
    have htrim : trim path.toList.reverse = name.toList.reverse ++ directories.reverse := by
      rw [hpath, List.reverse_append, List.reverse_append, trim_append htrailer, trim_name hproper]
    have hname : ∀ c ∈ name.toList.reverse, (c != '/') = true := fun c hc =>
      bne_iff_ne.mpr fun heq => hproper.1 (heq ▸ List.mem_reverse.mp hc)
    rw [htrim, List.takeWhile_append_of_pos hname]
    rcases hdirectories with rfl | hlast
    · simp
    · obtain ⟨front, rfl⟩ := List.getLast?_eq_some_iff.mp hlast
      simp

/-! ### The stem and the extension -/

/-- What `split` gives, in terms of the name before and behind the last dot. -/
theorem split_of_append {name : String} {stem extension : List Char} (h : name.toList = stem ++ '.' :: extension)
    (hdot : '.' ∉ extension) (hstem : stem ≠ []) :
    split name = (String.ofList stem, some (String.ofList extension)) := by
  have hall : ∀ c ∈ extension.reverse, (c != '.') = true := fun c hc =>
    bne_iff_ne.mpr fun heq => hdot (heq ▸ List.mem_reverse.mp hc)
  have htake : name.toList.reverse.takeWhile (· != '.') = extension.reverse := by
    rw [h, List.reverse_append, List.reverse_cons, List.append_assoc, List.takeWhile_append_of_pos hall]
    simp
  have hrest : name.toList.reverse.drop extension.reverse.length = '.' :: stem.reverse := by
    rw [h, List.reverse_append, List.reverse_cons, List.append_assoc, List.drop_left]
    rfl
  obtain ⟨c, front, hfront⟩ := List.exists_cons_of_ne_nil (List.reverse_ne_nil_iff.mpr hstem)
  unfold split
  dsimp only
  rw [htake, hrest, hfront]
  dsimp only
  rw [← hfront, List.reverse_reverse, List.reverse_reverse]

theorem split_of_splits {name stem extension : String} (h : Splits name stem extension) :
    split name = (stem, some extension) := by
  rw [split_of_append h.1 h.2.2 h.2.1, String.ofList_toList, String.ofList_toList]

theorem split_of_not_splits {name : String} (h : ∀ stem extension, ¬Splits name stem extension) :
    split name = (name, none) := by
  have hparts := @List.takeWhile_append_dropWhile _ (· != '.') name.toList.reverse
  have hdrop : name.toList.reverse.drop (name.toList.reverse.takeWhile (· != '.')).length =
      name.toList.reverse.dropWhile (· != '.') := (congrArg (List.drop _) hparts).symm.trans List.drop_left
  have hextension : '.' ∉ name.toList.reverse.takeWhile (· != '.') := fun hmem => by
    simpa using List.mem_takeWhile_imp hmem
  unfold split
  dsimp only
  rw [hdrop]
  split
  · rfl
  · rfl
  · rename_i rest c stem hshort heq
    -- There is a dot with something before it.
    have hc : c = '.' := by
      have hhead := @List.head?_dropWhile_not _ (· != '.') name.toList.reverse
      rw [heq] at hhead
      simpa using hhead
    subst hc
    rw [heq] at hparts
    refine absurd ⟨?_, ?_, ?_⟩ (h (String.ofList stem.reverse)
      (String.ofList (name.toList.reverse.takeWhile (· != '.')).reverse))
    · simpa using (congrArg List.reverse hparts).symm
    · rw [String.toList_ofList]
      intro hnil
      obtain rfl := List.reverse_eq_nil_iff.mp hnil
      exact hshort rfl
    · rwa [String.toList_ofList, List.mem_reverse]

theorem extension?_eq_some {path extension : String} :
    extension? path = some extension ↔ ∃ name stem, LeadsTo path name ∧ Splits name stem extension := by
  simp only [extension?, Option.bind_eq_some_iff, last?_eq_some]
  constructor
  · rintro ⟨name, hname, hsplit⟩
    by_cases h : ∃ stem extension, Splits name stem extension
    · obtain ⟨stem, extension', h⟩ := h
      rw [split_of_splits h] at hsplit
      obtain rfl := Option.some.inj hsplit
      exact ⟨name, stem, hname, h⟩
    · rw [split_of_not_splits fun stem extension hs => h ⟨stem, extension, hs⟩] at hsplit
      cases hsplit
  · rintro ⟨name, stem, hname, h⟩
    exact ⟨name, hname, by rw [split_of_splits h]⟩

theorem isStem_iff {name stem : String} : IsStem name stem ↔ (split name).1 = stem := by
  constructor
  · rintro (h | h)
    · rw [split_of_splits h]
    · rw [split_of_not_splits h]
  · rintro rfl
    by_cases h : ∃ stem extension, Splits name stem extension
    · obtain ⟨stem, extension, h⟩ := h
      rw [split_of_splits h]
      exact .split h
    · have hnone : ∀ stem extension, ¬Splits name stem extension := fun stem extension hs => h ⟨stem, extension, hs⟩
      rw [split_of_not_splits hnone]
      exact .whole hnone

theorem stem?_eq_some {path stem : String} : stem? path = some stem ↔ ∃ name, LeadsTo path name ∧ IsStem name stem := by
  simp only [stem?, Option.map_eq_some_iff, last?_eq_some, isStem_iff]

end FileName

/-! ### What extensions stand for -/

/-- The extensions of files with grammars, and the languages for data that they stand for. -/
inductive FileLanguage.Extends : String → FileLanguage → Prop
  | json : Extends "json" .json
  | yaml : Extends "yaml" .yaml
  | yml : Extends "yml" .yaml

theorem FileLanguage.ofExtension?_eq_some {extension : String} {language : FileLanguage} :
    ofExtension? extension = some language ↔ Extends extension language := by
  constructor
  · intro h
    unfold ofExtension? at h
    split at h
    · rename_i heq
      exact heq ▸ Option.some.inj h ▸ .json
    · split at h
      · rename_i heq
        obtain rfl := Option.some.inj h
        rw [Bool.or_eq_true, decide_eq_true_eq, decide_eq_true_eq] at heq
        rcases heq with rfl | rfl
        · exact .yaml
        · exact .yml
      · cases h
  · rintro (_ | _ | _) <;> rfl

/-- The extensions of files with texts, in small letters, and the languages that they stand for. -/
inductive Bundled.Extends : List Char → String → Prop
  | lua : Extends "lua".toList "lua"
  | nelua : Extends "nelua".toList "nelua"
  | c : Extends "c".toList "c"
  | header : Extends "h".toList "c"
  | sh : Extends "sh".toList "bash"
  | bash : Extends "bash".toList "bash"

theorem Bundled.lowerLetter_eq : lowerLetter = Char.toLower := by
  funext c
  unfold lowerLetter
  split
  · rfl
  · rename_i h
    have hupper : ¬(c.val ≥ 'A'.val ∧ c.val ≤ 'Z'.val) := fun hupper => h (by
      rw [Bool.and_eq_true, decide_eq_true_eq, decide_eq_true_eq]
      exact hupper)
    exact (show c.toLower = c from dif_neg hupper).symm

theorem Bundled.languageOfExtension?_eq_some {extension language : String} :
    languageOfExtension? extension = some language ↔ Extends (extension.toList.map Char.toLower) language := by
  rw [languageOfExtension?, lowerLetter_eq]
  generalize extension.toList.map Char.toLower = word
  constructor
  · intro h
    have hword : (String.ofList word).toList = word := String.toList_ofList
    generalize String.ofList word = text at h hword
    subst hword
    split at h
    · exact Option.some.inj h ▸ .lua
    · exact Option.some.inj h ▸ .nelua
    · exact Option.some.inj h ▸ .c
    · exact Option.some.inj h ▸ .header
    · exact Option.some.inj h ▸ .sh
    · exact Option.some.inj h ▸ .bash
    · cases h
  · intro h
    cases h <;> rfl

end Highlight
