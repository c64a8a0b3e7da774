import Highlight.Proofs.Regex.Follows

/-! Escapes, classes and names of groups within a group: what is read of them does not depend on the closing
    parenthesis behind the pattern. -/

namespace Highlight.Regex.Parser

open State

section
variable {w : Wrapping} {s : State} {tail : List Char}

theorem follows_openGroup {n : Nat} : Follows w AnyValue (openGroup n) (openGroup n) s tail := by
  refine .get ?_
  exact .ite (fun _ => .value) fun _ => .throw

theorem follows_numberedGroup : Follows w AnyValue numberedGroup numberedGroup s tail := by
  refine .of_bound fun hbound htail => .get ?_
  simp only [extend, decimal?_append htail]
  cases hd : decimal? s.rest with
  | none => exact .throw
  | some found =>
    obtain ⟨n, cs⟩ := found
    simp only [Option.map_some]
    by_cases hn : n < s.bound
    · have hn' : n < w.bound := Nat.lt_of_lt_of_le hn hbound
      simp only [hn, hn', if_true]
      have hk : Kept s { s with rest := cs, numbered := true } := ⟨suffix_of_decimal? hd, rfl, fun _ => rfl⟩
      exact .step hk (·.kept hk) rfl rfl follows_openGroup
    · simp only [hn, if_false]
      exact .throw

/-- Groups are named between angle brackets or quotes, or up to a closing parenthesis that is in the text. -/
theorem follows_namedGroup {opening close : List Char} {relative : Bool}
    (hdelimiters : relative = true → ∀ c ∈ opening ++ close, c ≠ ')' ∧ c ≠ '\n') :
    Follows w AnyValue (namedGroup opening close relative) (namedGroup opening close relative) s tail := by
  refine .of_bound fun _ htail => .get ?_
  simp only [extend]
  cases hname : name? opening close s.rest with
  | some found =>
    obtain ⟨name, cs⟩ := found
    obtain ⟨hcs, hname'⟩ := name?_append htail hname
    simp only [hname']
    refine .setRest hcs ?_
    split
    · exact .value
    · split
      · exact follows_openGroup
      · exact .throw
  | none =>
    cases relative with
    | false => exact .throw
    | true =>
      have hdelimiters := hdelimiters rfl
      have hnone := name?_append_none htail (fun c hc => hdelimiters c (List.mem_append_left _ hc))
        (fun c hc => hdelimiters c (List.mem_append_right _ hc)) hname
      simp only [hnone, if_true]
      cases hback : name? (opening ++ ['-']) close s.rest with
      | none => exact .throw
      | some found =>
        obtain ⟨name, cs⟩ := found
        obtain ⟨hcs, hback'⟩ := name?_append htail hback
        simp only [hback']
        refine .setRest hcs ?_
        split
        · exact .ite (fun _ => .value) fun _ => .throw
        · exact .throw

/-! ### Escapes -/

theorem not_hexDigit (htail : tail <:+ closing w.lineEnd) : ∀ c ∈ tail, (hexValue? c).isSome = false := by
  intro c hc
  rcases mem_closing htail hc with rfl | rfl <;> rfl

/-- A run of hexadecimal digits of a given length is not completed by the closing text. -/
theorem fixedDigits_append (htail : tail <:+ closing w.lineEnd) (digits : Nat) (cs : List Char) :
    (((cs ++ tail).take digits).length == digits && ((cs ++ tail).take digits).all fun c => (hexValue? c).isSome) =
      ((cs.take digits).length == digits && (cs.take digits).all fun c => (hexValue? c).isSome) := by
  rcases Nat.le_total digits cs.length with hle | hle
  · rw [List.take_append_of_le_length hle]
  · rcases Nat.eq_or_lt_of_le hle with heq | hlt
    · rw [List.take_append_of_le_length (Nat.le_of_eq heq.symm)]
    · have hp : ((cs.take digits).length == digits) = false := by
        rw [beq_eq_false_iff_ne, List.length_take]
        omega
      rw [hp, Bool.false_and, List.take_append, List.take_of_length_le hle]
      cases tail with
      | nil => simpa using fun h => absurd h (Nat.ne_of_lt hlt)
      | cons c tail =>
        obtain ⟨n, hn⟩ := Nat.exists_eq_succ_of_ne_zero (Nat.sub_ne_zero_of_lt hlt)
        simp [hn, not_hexDigit htail c List.mem_cons_self]

/-- The character with a code, which must be one. -/
def charOf (code : Nat) : Parser Char := do
  match charOfCode? code with
  | some c => return c
  | none => throw .invalidCode

theorem follows_charOf {code : Nat} : Follows w AnyValue (charOf code) (charOf code) s tail := by
  unfold charOf
  split
  · exact .value
  · exact .throw

theorem follows_codePoint {digits : Nat} : Follows w AnyValue (codePoint digits) (codePoint digits) s tail := by
  refine .of_bound fun _ htail => .rest ?_
  simp only [fixedDigits_append htail, pure_bind]
  refine .ite (fun hfixed => ?_) fun _ => ?_
  · have hle : digits ≤ s.rest.length := by
      have hlength := eq_of_beq (Bool.and_eq_true_iff.mp hfixed).1
      rw [List.length_take] at hlength
      omega
    rw [List.take_append_of_le_length hle, List.drop_append_of_le_length hle]
    exact .setRest (List.drop_suffix _ _) follows_charOf
  · rcases hs : s.rest with _ | ⟨c, cs⟩
    · exact .of_error rfl
    · simp only [List.cons_append]
      split
      · rename_i cs' heq
        obtain ⟨rfl, rfl⟩ := List.cons.inj heq
        simp only [takeWhile_append_tail (not_hexDigit htail), drop_takeWhile_append]
        rcases hexNumber? _ with _ | n
        · exact .of_error rfl
        · rcases hdrop : cs.drop _ with _ | ⟨d, r⟩
          · exact .of_error rfl
          · have hr : r <:+ s.rest :=
              hs ▸ (List.suffix_cons d r).trans (hdrop ▸ (List.drop_suffix _ cs).trans (List.suffix_cons _ cs))
            by_cases hd : d = '\x7d'
            · subst hd
              exact .ite (fun _ => .setRest hr follows_charOf) fun _ => .of_error rfl
            · split
              · rename_i heq
                exact absurd (List.cons.inj heq).1 hd
              · exact .of_error rfl
      · exact .of_error rfl

/-- The characters with a property, which must be known. -/
def propertySet (negated : Bool) (f : Flags) (name : List Char) : Parser CharSet := do
  match propertyOfName? name with
  | some (p, unequal) => return ((CharSet.property p).foldIf f.ignoreCase).complIf (negated != unequal)
  | none => throw .unknownProperty

theorem follows_propertySet {negated : Bool} {f : Flags} {name : List Char} :
    Follows w AnyValue (propertySet negated f name) (propertySet negated f name) s tail := by
  unfold propertySet
  split
  · exact .value
  · exact .throw

theorem follows_property {negated : Bool} : Follows w AnyValue (property negated) (property negated) s tail := by
  refine .flags (.rest ?_)
  rcases hs : s.rest with _ | ⟨c, cs⟩
  · exact .of_error rfl
  · have hcs : cs <:+ s.rest := hs ▸ List.suffix_cons c cs
    simp only [List.cons_append, pure_bind]
    by_cases hbrace : c = '\x7b'
    · subst hbrace
      by_cases hlt : (cs.takeWhile (· != '\x7d')).length < cs.length
      · have hlt' : (cs.takeWhile (· != '\x7d')).length < (cs ++ tail).length := by
          rw [List.length_append]
          omega
        simp only [List.takeWhile_append, if_neg (Nat.ne_of_lt hlt), if_pos hlt, if_pos hlt',
          List.drop_append_of_le_length hlt]
        exact .setRest ((List.drop_suffix _ _).trans hcs) follows_propertySet
      · simp only [if_neg hlt]
        exact .of_error rfl
    · by_cases hback : c = '\\'
      · subst hback
        exact .of_error rfl
      · simp only
        exact .setRest hcs follows_propertySet

/-- What is known of an escape: an expression that it stands for has no groups. -/
def PlainEscape (e : Escape) (_ : State) : Prop := ∀ expr, e = .expr expr → expr.Numbered

theorem follows_boundary {a : Assertion} : Follows w PlainEscape (boundary a) (boundary a) s tail := by
  have hplain : ∀ {s : State}, PlainEscape (.expr (.assertion a)) s := by
    rintro s expr ⟨⟩ i hi
    cases hi
  refine .of_bound fun _ htail => .rest ?_
  rcases hs : s.rest with _ | ⟨c, cs⟩
  · rcases suffix_closing htail with rfl | rfl | ⟨-, rfl⟩ <;> exact .pure hplain
  · simp only [List.cons_append]
    split
    · exact .throw
    · split
      · rename_i hc _ _ heq
        obtain ⟨rfl, rfl⟩ := List.cons.inj heq
        exact absurd rfl (hc cs)
      · exact .pure hplain

theorem follows_namedEscape {cs : List Char} : Follows w PlainEscape
    (match cs with
      | '\'' :: _ => do return .backref (← namedGroup ['\''] ['\''] true)
      | _ => do return .backref (← namedGroup ['<'] ['>'] true))
    (match cs ++ tail with
      | '\'' :: _ => do return .backref (← namedGroup ['\''] ['\''] true)
      | _ => do return .backref (← namedGroup ['<'] ['>'] true)) s tail := by
  have hquotes : Follows w PlainEscape (do return .backref (← namedGroup ['\''] ['\''] true))
      (do return .backref (← namedGroup ['\''] ['\''] true)) s tail :=
    .map (follows_namedGroup fun _ => by simp) fun _ _ _ _ h => nomatch h
  have hbrackets : Follows w PlainEscape (do return .backref (← namedGroup ['<'] ['>'] true))
      (do return .backref (← namedGroup ['<'] ['>'] true)) s tail :=
    .map (follows_namedGroup fun _ => by simp) fun _ _ _ _ h => nomatch h
  refine .of_bound fun _ htail => ?_
  cases cs with
  | nil => rcases suffix_closing htail with rfl | rfl | ⟨-, rfl⟩ <;> exact hbrackets
  | cons c cs =>
    by_cases hc : c = '\''
    · subst hc
      exact hquotes
    · simpa [hc] using hbrackets

theorem follows_escape {inClass : Bool} : Follows w PlainEscape (escape inClass) (escape inClass) s tail := by
  have hexpr : ∀ {expr : Expr} {s : State}, expr.groups = [] →
      Follows w PlainEscape (pure (.expr expr)) (pure (.expr expr)) s tail := by
    intro expr s hexpr
    refine .pure ?_
    rintro expr' ⟨⟩ i hi
    rw [hexpr] at hi
    cases hi
  have hchar : ∀ {c : Char} {ignoreCase : Bool} {s : State},
      Follows w PlainEscape (pure (.char c ignoreCase)) (pure (.char c ignoreCase)) s tail :=
    .pure fun _ h => nomatch h
  have hset : ∀ {set : CharSet} {s : State}, Follows w PlainEscape (pure (.set set)) (pure (.set set)) s tail :=
    .pure fun _ h => nomatch h
  refine .flags (.rest ?_)
  rcases hs : s.rest with _ | ⟨c, cs⟩
  · exact .of_error rfl
  · simp only [List.cons_append]
    refine .ite (fun _ => ?_) fun _ => ?_
    · exact .map follows_numberedGroup fun _ _ _ _ h => nomatch h
    · refine .setRest (hs ▸ List.suffix_cons c cs) ?_
      by_cases hassertion : c ∈ ['A', 'z', 'b', 'B', '<', '>', 'K', 'G']
      · simp only [List.mem_cons, List.not_mem_nil, or_false] at hassertion
        rcases hassertion with rfl | rfl | rfl | rfl | rfl | rfl | rfl | rfl <;> cases inClass <;>
          first
          | exact hexpr rfl
          | exact follows_boundary
          | exact hchar
      · simp only [List.mem_cons, List.not_mem_nil, or_false, not_or] at hassertion
        obtain ⟨hA, hz, hb, hB, hl, hr, hK, hG⟩ := hassertion
        by_cases hk : c = 'k'
        · subst hk
          cases inClass
          · exact follows_namedEscape
          · exact hchar
        · simp only [ite_self]
          split <;>
            first
            | exact hset
            | exact hchar
            | exact .map follows_codePoint fun _ _ _ _ h => nomatch h
            | exact .map follows_property fun _ _ _ _ h => nomatch h
            | exact .ite (fun _ => .throw) fun _ => hchar

/-! ### Classes -/

theorem follows_classItems {fuel fuel' : Nat} (hle : fuel ≤ fuel') {nest : Nat} :
    Follows w AnyValue (classItems fuel nest) (classItems fuel' nest) s tail := by
  induction fuel generalizing fuel' nest s tail with
  | zero => exact .throw
  | succ fuel ih =>
    cases fuel' with
    | zero => cases hle
    | succ fuel' =>
      have hitems : ∀ {item : ClassItem} {nest : Nat} {s : State} {tail : List Char},
          Follows w AnyValue (do return item :: (← classItems fuel nest))
            (do return item :: (← classItems fuel' nest)) s tail :=
        .map (ih (Nat.le_of_succ_le_succ hle)) fun _ _ _ => trivial
      refine .rest ?_
      rcases hs : s.rest with _ | ⟨c, cs⟩
      · exact .of_error rfl
      · have hcs : cs <:+ s.rest := hs ▸ List.suffix_cons c cs
        by_cases hback : c = '\\'
        · subst hback
          refine .setRest hcs (.bind follows_escape fun e _ _ _ _ => ?_)
          cases e with
          | char c _ => exact hitems
          | set set => exact hitems
          | expr => exact .of_error rfl
          | backref => exact .of_error rfl
        · by_cases hopen : c = '['
          · subst hopen
            exact .setRest hcs hitems
          · by_cases hclose : c = ']'
            · subst hclose
              exact .setRest hcs (.ite (fun _ => .value) fun _ => hitems)
            · simp only [List.cons_append]
              exact .setRest hcs hitems

theorem numbered_concat_literals {set : CharSet} {items : List ClassItem} {ignoreCase : Bool} :
    (Expr.concat (.set set ::
      items.filterMap fun i => (Bracket.char? i).map fun c => .literal c ignoreCase)).Numbered := by
  have hgroups : ∀ items : List ClassItem,
      Expr.groupsOf (items.filterMap fun i => (Bracket.char? i).map fun c => .literal c ignoreCase) = [] := by
    intro items
    induction items with
    | nil => rfl
    | cons i items ih =>
      rw [List.filterMap_cons]
      cases Bracket.char? i with
      | none => exact ih
      | some c => exact ih
  intro i hi
  rw [Expr.groups, Expr.groupsOf, hgroups] at hi
  cases hi

/-- Reads the items of a class behind those that open it. -/
def classBody (ignoreCase : Bool) (front : List ClassItem) (cs : List Char) : Parser Expr := do
  setRest cs
  let items ← classItems (cs.length + 1) 1
  match Bracket.read? ignoreCase (front ++ items) with
  | some (set, []) => return .set set
  | some (set, more) =>
    return .concat (.set set :: more.filterMap fun i => (Bracket.char? i).map fun c => .literal c ignoreCase)
  | none => throw .invalidClass

theorem follows_classBody {ignoreCase : Bool} {front : List ClassItem} {cs : List Char} (hcs : cs <:+ s.rest) :
    Follows w NumberedExpr (classBody ignoreCase front cs) (classBody ignoreCase front (cs ++ tail)) s tail := by
  have hle : cs.length + 1 ≤ (cs ++ tail).length + 1 := by simp
  refine .setRest hcs (.bind (follows_classItems hle) fun items _ _ _ _ => ?_)
  split
  · exact .pure fun i hi => nomatch hi
  · exact .pure numbered_concat_literals
  · exact .throw

/-- The caret and the bracket that may open a class, and what comes behind them. -/
def classOpening (cs : List Char) : List ClassItem × List Char :=
  let (caret, cs) := match cs with
    | '^' :: cs => ([ClassItem.raw '^'], cs)
    | cs => ([], cs)
  let (bracket, cs) := match cs with
    | ']' :: cs => ([ClassItem.raw ']'], cs)
    | cs => ([], cs)
  (caret ++ bracket, cs)

theorem bracketed_eq : bracketed = (do
    let f ← flags
    let (front, cs) := classOpening (← rest)
    classBody f.ignoreCase front cs) := rfl

theorem classOpening_append (htail : tail <:+ closing w.lineEnd) (cs : List Char) :
    (classOpening cs).2 <:+ cs ∧ classOpening (cs ++ tail) = ((classOpening cs).1, (classOpening cs).2 ++ tail) := by
  rcases cs with _ | ⟨c, cs⟩
  · rcases suffix_closing htail with rfl | rfl | ⟨-, rfl⟩ <;> exact ⟨List.suffix_rfl, rfl⟩
  · by_cases hcaret : c = '^'
    · subst hcaret
      rcases cs with _ | ⟨d, cs⟩
      · rcases suffix_closing htail with rfl | rfl | ⟨-, rfl⟩ <;> exact ⟨List.suffix_cons _ _, rfl⟩
      · by_cases hclose : d = ']'
        · subst hclose
          exact ⟨⟨['^', ']'], rfl⟩, rfl⟩
        · simp [classOpening, hclose]
    · by_cases hclose : c = ']'
      · subst hclose
        exact ⟨List.suffix_cons _ _, rfl⟩
      · simp [classOpening, hcaret, hclose]

theorem follows_bracketed : Follows w NumberedExpr bracketed bracketed s tail := by
  rw [bracketed_eq]
  refine .of_bound fun _ htail => .flags (.rest ?_)
  obtain ⟨hsuffix, happend⟩ := classOpening_append htail s.rest
  rw [happend]
  exact follows_classBody hsuffix

end
end Highlight.Regex.Parser
