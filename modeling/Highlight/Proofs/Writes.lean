import Highlight.Proofs.Named
import Highlight.Settings

/-! Settings as what was written into them last. A value that is laid over settings comes to one write, and a group to a
    write for each of its values. Whatever the order and the depth of the writes, what stands at the end of a path is
    the value of the last write that touches the path, if that write ends there (`at?_of_stands`). -/

namespace Highlight

/-- A step as it is taken: names do not depend on the case of letters. -/
def SettingStep.taken : SettingStep → SettingStep
  | .name key => .name (lowerKey key)
  | .place index => .place index

def SettingStep.isName : SettingStep → Bool
  | .name _ => true
  | .place _ => false

namespace Setting

/-- What there is at the end of a path of names. -/
def at? : List String → Setting → Option Setting
  | [], setting => some setting
  | name :: path, setting => (getValue? name setting.entries).bind (at? path)

/-- A setting that is not a group of others. -/
def IsValue (setting : Setting) : Prop := ∀ entries, setting ≠ .group entries

/-- Changes what a setting has under a name. -/
def within (key : String) (change : Setting → Setting) (setting : Setting) : Setting :=
  .group (putValue (SettingStep.lowerKey key)
    (change ((getValue? (SettingStep.lowerKey key) setting.entries).getD .unset)) setting.entries)

section
variable {key name : String} {change change' : Setting → Setting} {setting value : Setting} {path : List String}
  {steps : List SettingStep} {more : List (String × Setting)}

theorem at?_cons : at? (name :: path) setting = (getValue? name setting.entries).bind (at? path) := rfl

theorem at?_putValue {entries : List (String × Setting)} :
    at? (name :: path) (.group (putValue key value entries)) =
      if key = name then at? path value else (getValue? name entries).bind (at? path) := by
  rw [at?_cons, Setting.entries, getValue?_putValue]
  split <;> rfl

theorem at?_within :
    at? (name :: path) (within key change setting) =
      if SettingStep.lowerKey key = name then
        at? path (change ((getValue? (SettingStep.lowerKey key) setting.entries).getD .unset))
      else at? (name :: path) setting := at?_putValue

/-- An empty group gives way to what is there. -/
theorem at?_put_nil {found : Setting} (h : setting.at? (name :: path) = some found) :
    (put key (.group []) setting).at? (name :: path) = some found := by
  rw [put, merge, at?_putValue, ← at?_cons]
  split
  · rename_i hname
    subst hname
    obtain ⟨inner, hinner, hfound⟩ := Option.bind_eq_some_iff.mp (at?_cons.symm.trans h)
    rwa [hinner]
  · exact h

theorem putValue_putValue {α : Type} (key : String) (value value' : α) (entries : List (String × α)) :
    putValue key value' (putValue key value entries) = putValue key value' entries := by
  induction entries with
  | nil => simp [putValue]
  | cons entry entries ih =>
    obtain ⟨k, v⟩ := entry
    by_cases hk : k = key
    · simp [putValue, hk]
    · simp [putValue, hk, ih]

theorem within_within : within key change' (within key change setting) = within key (change' ∘ change) setting := by
  simp [within, entries, getValue?_putValue, putValue_putValue]

/-! ### Values under a name -/

theorem put_value (h : value.IsValue) : put key value setting = within key (fun _ => value) setting := by
  cases value with
  | group entries => exact absurd rfl (h entries)
  | _ => rfl

theorem put_unset : put key value .unset = put key value (.group []) := by
  cases value <;> rfl

theorem merge_unset (entry : String × Setting) : merge (entry :: more) .unset = merge (entry :: more) (.group []) := by
  rw [merge, merge, put_unset]

/-- A group that has entries is put by putting these, one after the other. -/
theorem put_group (entry : String × Setting) :
    put key (.group (entry :: more)) setting = within key (merge (entry :: more)) setting := by
  rw [put, within]
  cases getValue? (SettingStep.lowerKey key) setting.entries with
  | none => rw [Option.getD_none, Option.getD_none, merge_unset]
  | some inner => rfl

theorem assign_name_cons (step : SettingStep) :
    assign value (.name key :: step :: steps) setting = within key (assign value (step :: steps)) setting := rfl

/-- Steps that start with a name change a setting under that name only. -/
theorem assign_name (key : String) (steps : List SettingStep) (value setting : Setting) : ∃ inner,
    assign value (.name key :: steps) setting =
      .group (putValue (SettingStep.lowerKey key) inner setting.entries) := by
  cases steps with
  | nil => cases value <;> exact ⟨_, rfl⟩
  | cons step steps => exact ⟨_, rfl⟩

theorem at?_assign_of_ne (hname : SettingStep.lowerKey key ≠ name) :
    (assign value (.name key :: steps) setting).at? (name :: path) = setting.at? (name :: path) := by
  obtain ⟨inner, heq⟩ := assign_name key steps value setting
  rw [heq, at?_putValue, if_neg hname, at?_cons]

end
end Setting

/-! ### Writes -/

namespace Settings

structure Write where
  steps : List SettingStep
  value : Setting

def Write.perform (setting : Setting) (write : Write) : Setting := Setting.assign write.value write.steps setting

def performAll (writes : List Write) (setting : Setting) : Setting := writes.foldl Write.perform setting

@[simp] theorem performAll_nil (setting : Setting) : performAll [] setting = setting := rfl

@[simp] theorem performAll_cons (write : Write) (writes : List Write) (setting : Setting) :
    performAll (write :: writes) setting = performAll writes (write.perform setting) := rfl

theorem performAll_append (writes writes' : List Write) (setting : Setting) :
    performAll (writes ++ writes') setting = performAll writes' (performAll writes setting) := List.foldl_append

mutual
/-- The writes of a value at the end of steps: of a group that has entries those of its entries. -/
def writes (steps : List SettingStep) : Setting → List Write
  | .group [] => [⟨steps, .group []⟩]
  | .group (entry :: more) => writesOf steps (entry :: more)
  | value => [⟨steps, value⟩]

def writesOf (steps : List SettingStep) : List (String × Setting) → List Write
  | [] => []
  | (key, value) :: more => writes (steps ++ [.name key]) value ++ writesOf steps more
end

section
variable {key : String} {keys path : List String} {setting value : Setting}

theorem merge_eq_foldl (entries : List (String × Setting)) (setting : Setting) :
    Setting.merge entries setting =
      entries.foldl (fun setting (key, value) => Setting.put key value setting) setting := by
  induction entries generalizing setting with
  | nil => rfl
  | cons entry entries ih => rw [Setting.merge, ih, List.foldl_cons]

/-- Changes under a name, one after the other, are one change. -/
theorem foldl_within {α : Type} (f : α → Setting → Setting) (changes : List α) (change : Setting → Setting)
    (setting : Setting) :
    changes.foldl (fun setting a => setting.within key (f a)) (setting.within key change) =
      setting.within key fun inner => changes.foldl (fun inner a => f a inner) (change inner) := by
  induction changes generalizing change with
  | nil => rfl
  | cons a changes ih =>
    rw [List.foldl_cons, Setting.within_within, ih]
    rfl

/-- A group that has entries is written by writing these. -/
theorem assign_group (key : String) (keys : List String) (entry : String × Setting) (more : List (String × Setting))
    (setting : Setting) :
    Setting.assign (.group (entry :: more)) ((key :: keys).map .name) setting =
      (entry :: more).foldl (fun setting (k, value) =>
        Setting.assign value ((key :: (keys ++ [k])).map .name) setting) setting := by
  induction keys generalizing key setting with
  | nil =>
    refine (Setting.put_group entry).trans ?_
    rw [List.foldl_cons]
    refine Eq.trans ?_ (foldl_within (fun e => Setting.put e.1 e.2) more _ setting).symm
    exact congrArg (fun change => setting.within key change) (funext fun inner => merge_eq_foldl (entry :: more) inner)
  | cons k keys ih =>
    rw [List.foldl_cons]
    refine Eq.trans ?_
      (foldl_within (fun e => Setting.assign e.2 ((k :: (keys ++ [e.1])).map .name)) more _ setting).symm
    exact congrArg (fun change => setting.within key change) (funext fun inner => ih k inner)

mutual
theorem performAll_writes (key : String) (keys : List String) : ∀ (value setting : Setting),
    performAll (writes ((key :: keys).map .name) value) setting =
      Setting.assign value ((key :: keys).map .name) setting
  | .group [], _ | .unset, _ | .text _, _ | .integer _, _ | .number _, _ | .switch _, _ | .list _, _ => rfl
  | .group (entry :: more), setting => by
    rw [writes, performAll_writesOf key keys (entry :: more) setting, assign_group]

theorem performAll_writesOf (key : String) (keys : List String) :
    ∀ (entries : List (String × Setting)) (setting : Setting),
      performAll (writesOf ((key :: keys).map .name) entries) setting =
        entries.foldl (fun setting (k, value) =>
          Setting.assign value ((key :: (keys ++ [k])).map .name) setting) setting
  | [], _ => rfl
  | (k, value) :: more, setting => by
    have hsteps : (key :: keys).map SettingStep.name ++ [.name k] = (key :: (keys ++ [k])).map .name := by simp
    rw [writesOf, performAll_append, hsteps, performAll_writes key (keys ++ [k]) value setting,
      performAll_writesOf key keys more, List.foldl_cons]
end

end

/-- Whatever is laid over a setting comes to writes, if the steps lead to names only. -/
theorem performAll_writes_of_all {steps : List SettingStep} (hne : steps ≠ [])
    (hnames : steps.all SettingStep.isName = true) (value setting : Setting) :
    performAll (writes steps value) setting = Setting.assign value steps setting := by
  obtain ⟨keys, rfl⟩ : ∃ keys : List String, steps = keys.map .name := by
    clear hne
    induction steps with
    | nil => exact ⟨[], rfl⟩
    | cons step steps ih =>
      rw [List.all_cons, Bool.and_eq_true] at hnames
      obtain ⟨keys, rfl⟩ := ih hnames.2
      cases step with
      | name key => exact ⟨key :: keys, rfl⟩
      | place => cases hnames.1
  cases keys with
  | nil => exact absurd rfl hne
  | cons key keys => exact performAll_writes key keys value setting

/-! ### Paths and writes -/

/-- An empty group makes way for what is there where it is put. -/
def makesWay : Setting → Bool
  | .group [] => true
  | _ => false

/-- Whether a write can change what there is at the end of a path: it ends on the path, at the end or before it, or it
    goes on behind its end, or it comes to a place of a list before that. -/
def touches (value : Setting) : List SettingStep → List String → Bool
  | .name key :: steps, name :: path =>
    SettingStep.lowerKey key == name && if steps.isEmpty then !makesWay value else touches value steps path
  | _, _ => true

/-- A value stands at the end of a path: the last of the writes that touch the path is the one of the value to there. -/
def Stands (writes : List Write) (path : List String) (value : Setting) : Prop :=
  value.IsValue ∧ ∃ before steps after, writes = before ++ ⟨steps, value⟩ :: after ∧
    steps.map SettingStep.taken = path.map .name ∧ ∀ write ∈ after, touches write.value write.steps path = false

section
variable {name : String} {path : List String} {steps : List SettingStep} {setting value found : Setting}

theorem eq_nil_of_makesWay (h : makesWay value = true) : value = .group [] := by
  unfold makesWay at h
  split at h
  · rfl
  · cases h

/-- What a write does not touch it leaves as it is. -/
theorem at?_assign_of_not_touches (h : touches value steps path = false) (hfound : setting.at? path = some found) :
    (Setting.assign value steps setting).at? path = some found := by
  induction path generalizing steps setting with
  | nil => cases steps <;> simp [touches] at h
  | cons name path ih =>
    match steps, h with
    | .name key :: steps, h =>
      by_cases hname : SettingStep.lowerKey key = name
      · subst hname
        simp only [touches, beq_self_eq_true, Bool.true_and] at h
        cases steps with
        | nil =>
          obtain rfl := eq_nil_of_makesWay (by simpa using h)
          exact Setting.at?_put_nil hfound
        | cons step steps =>
          obtain ⟨inner, hinner, hfound⟩ := Option.bind_eq_some_iff.mp (Setting.at?_cons.symm.trans hfound)
          rw [Setting.assign_name_cons, Setting.at?_within, if_pos rfl, hinner]
          exact ih h hfound
      · rwa [Setting.at?_assign_of_ne hname]

/-- What is written to the end of a path is there. -/
theorem at?_assign (hvalue : value.IsValue) (hpath : path ≠ [])
    (hsteps : steps.map SettingStep.taken = path.map .name) :
    (Setting.assign value steps setting).at? path = some value := by
  induction path generalizing steps setting with
  | nil => exact absurd rfl hpath
  | cons name path ih =>
    obtain ⟨step, steps, rfl, hstep, hrest⟩ := List.map_eq_cons_iff.mp hsteps
    obtain ⟨key, rfl, rfl⟩ : ∃ key, step = .name key ∧ SettingStep.lowerKey key = name := by
      cases step with
      | name key => exact ⟨key, rfl, SettingStep.name.inj hstep⟩
      | place => cases hstep
    cases path with
    | nil =>
      obtain rfl := List.map_eq_nil_iff.mp hrest
      rw [Setting.assign, Setting.put_value hvalue, Setting.at?_within, if_pos rfl]
      rfl
    | cons name path =>
      cases steps with
      | nil => cases hrest
      | cons step steps =>
        rw [Setting.assign_name_cons, Setting.at?_within, if_pos rfl]
        exact ih (List.cons_ne_nil _ _) hrest

theorem at?_performAll_of_not_touches {writes : List Write}
    (h : ∀ write ∈ writes, touches write.value write.steps path = false) (hfound : setting.at? path = some found) :
    (performAll writes setting).at? path = some found := by
  induction writes generalizing setting with
  | nil => exact hfound
  | cons write writes ih =>
    obtain ⟨hwrite, hwrites⟩ := List.forall_mem_cons.mp h
    exact ih hwrites (at?_assign_of_not_touches hwrite hfound)

theorem at?_of_stands {writes : List Write} (h : Stands writes path value) (hpath : path ≠ []) (setting : Setting) :
    (performAll writes setting).at? path = some value := by
  obtain ⟨hvalue, before, steps, after, rfl, hsteps, hafter⟩ := h
  rw [performAll_append, performAll_cons]
  exact at?_performAll_of_not_touches hafter (at?_assign hvalue hpath hsteps)

end

end Settings
end Highlight
