import Highlight.Proofs.Except
import Highlight.Proofs.Regex.Reading

/-! The numbers in a prepared pattern. Groups are counted from one on, and the slots that loops keep for themselves come
    after those of the groups, so that no part of a pattern writes the slots of the whole match. -/

namespace Highlight.Regex

/-- Where building succeeds, `I` still holds of the state if it held before, and `P` holds of what was built. -/
def Builds {σ α : Type} (I : σ → Prop) (P : α → Prop) (b : StateT σ (Except CompileError) α) : Prop :=
  ∀ s a s', I s → b.run s = .ok (a, s') → I s' ∧ P a

namespace Builds
variable {σ α β : Type} {I : σ → Prop} {P : α → Prop} {Q : β → Prop}

theorem pure {a : α} (h : P a) : Builds I P (pure a) := by
  rintro s a s' hs ⟨⟩
  exact ⟨hs, h⟩

theorem throw {e : CompileError} : Builds I P (throw e) := by
  rintro s a s' - ⟨⟩

theorem throw_bind {e : CompileError} {f : β → StateT σ (Except CompileError) α} :
    Builds I P (MonadExcept.throw e >>= f) := by
  rintro s a s' - ⟨⟩

theorem lift {x : Except CompileError α} (h : ∀ a, x = .ok a → P a) :
    Builds I P (liftM x : StateT σ (Except CompileError) α) := by
  intro s a s' hs hrun
  cases x with
  | error => cases hrun
  | ok b =>
    cases hrun
    exact ⟨hs, h _ rfl⟩

theorem bind {b : StateT σ (Except CompileError) β} {f : β → StateT σ (Except CompileError) α} (hb : Builds I Q b)
    (hf : ∀ x, Q x → Builds I P (f x)) : Builds I P (b >>= f) := by
  intro s a s' hs h
  obtain ⟨x, s₁, hrun, h⟩ := run_bind_eq_ok h
  obtain ⟨hs₁, hx⟩ := hb s x s₁ hs hrun
  exact hf x hx s₁ a s' hs₁ h

theorem map {b : StateT σ (Except CompileError) β} {f : β → α} (hb : Builds I Q b) (hf : ∀ x, Q x → P (f x)) :
    Builds I P (f <$> b) :=
  hb.bind fun x hx => pure (hf x hx)

theorem ite {c : Prop} [Decidable c] {b b' : StateT σ (Except CompileError) α} (h : c → Builds I P b)
    (h' : ¬c → Builds I P b') : Builds I P (if c then b else b') := by
  by_cases hc : c
  · rw [if_pos hc]
    exact h hc
  · rw [if_neg hc]
    exact h' hc

end Builds

/-! ### Plain expressions -/

namespace Plain

/-- Groups are counted from one on. -/
def Numbered : Plain → Prop
  | empty | one _ | assertion _ => True
  | seq a b | alt _ a b => a.Numbered ∧ b.Numbered
  | group index body => 0 < index ∧ body.Numbered
  | loop _ body _ => body.Numbered

/-- What was built has its groups counted from one on. -/
abbrev BuildsNumbered (b : Build Plain) : Prop := Builds (fun _ => True) Numbered b

abbrev BuildsAll (b : Build (List Plain)) : Prop := Builds (fun _ => True) (fun es => ∀ e ∈ es, e.Numbered) b

theorem builds_fresh : Builds (fun _ => True) (fun _ => True) fresh := fun _ _ _ _ _ => ⟨trivial, trivial⟩

theorem builds_oneOf (set : CharSet) : BuildsNumbered (oneOf set) :=
  @Builds.bind _ _ _ _ _ (fun _ => True) _ _ (fun _ _ _ _ _ => ⟨trivial, trivial⟩) fun _ _ => .pure trivial

theorem numbered_ofList {es : List Plain} (h : ∀ e ∈ es, e.Numbered) : (ofList es).Numbered := by
  induction es with
  | nil => trivial
  | cons e es ih =>
    obtain ⟨he, hes⟩ := List.forall_mem_cons.mp h
    cases es with
    | nil => exact he
    | cons => exact ⟨he, ih hes⟩

theorem builds_choice {es : List Plain} (h : ∀ e ∈ es, e.Numbered) : BuildsNumbered (choice es) := by
  induction es with
  | nil => exact .pure trivial
  | cons e es ih =>
    obtain ⟨he, hes⟩ := List.forall_mem_cons.mp h
    cases es with
    | nil => exact .pure he
    | cons => exact builds_fresh.bind fun _ _ => (ih hes).bind fun _ hrest => .pure ⟨he, hrest⟩

theorem builds_copies {build : Build Plain} (h : BuildsNumbered build) (n : Nat) : BuildsAll (copies build n) := by
  induction n with
  | zero => exact .pure nofun
  | succ n ih => exact h.bind fun _ he => ih.bind fun _ hes => .pure (List.forall_mem_cons.mpr ⟨he, hes⟩)

theorem builds_optional {greedy : Bool} {e : Plain} (h : e.Numbered) : BuildsNumbered (optional greedy e) := by
  refine builds_fresh.bind fun _ _ => .pure ?_
  cases greedy
  · exact ⟨trivial, h⟩
  · exact ⟨h, trivial⟩

theorem builds_optionals {greedy : Bool} {build : Build Plain} (h : BuildsNumbered build) (n : Nat) :
    BuildsNumbered (optionals greedy build n) := by
  induction n with
  | zero => exact .pure trivial
  | succ n ih => exact h.bind fun _ he => ih.bind fun _ hrest => builds_optional ⟨he, hrest⟩

theorem builds_repetition {build : Build Plain} (h : BuildsNumbered build) (least : Nat) (most : Option Nat)
    (greedy : Bool) : BuildsNumbered (repetition build least most greedy) := by
  unfold repetition
  split
  · exact h.bind fun _ _ => .pure trivial
  · exact builds_fresh.bind fun _ _ => h.bind fun _ he => builds_optional he
  · refine (builds_copies h _).bind fun es hes => builds_fresh.bind fun _ _ => h.bind fun _ he =>
      .pure (numbered_ofList ?_)
    simp only [List.forall_mem_append, List.forall_mem_singleton]
    exact ⟨hes, he⟩
  · refine .ite (fun _ => .throw_bind) fun _ => ?_
    refine (builds_copies h _).bind fun es hes => (builds_optionals h _).bind fun e he => .pure (numbered_ofList ?_)
    simp only [List.forall_mem_append, List.forall_mem_singleton]
    exact ⟨hes, he⟩

mutual
theorem builds_ofExpr (e : Expr) (he : e.Numbered) : BuildsNumbered (ofExpr e) := by
  cases e with
  | any newline => cases newline <;> exact builds_oneOf _
  | assertion | empty | look | backref | atomic | keepOut | searchStart | groupMatched | conditional =>
    exact .pure trivial
  | literal | set => exact builds_oneOf _
  | concat parts => exact (builds_ofExprs parts he).bind fun _ hes => .pure (numbered_ofList hes)
  | alt branches => exact (builds_ofExprs branches he).bind fun _ hes => builds_choice hes
  | group index body =>
    obtain ⟨hindex, hbody⟩ := List.forall_mem_cons.mp he
    exact (builds_ofExpr body hbody).bind fun _ he => .pure ⟨hindex, he⟩
  | repeated body least most greedy => exact builds_repetition (builds_ofExpr body he) least most greedy

theorem builds_ofExprs (es : List Expr) (hes : ∀ i ∈ Expr.groupsOf es, 0 < i) : BuildsAll (ofExprs es) := by
  cases es with
  | nil => exact .pure nofun
  | cons e es =>
    obtain ⟨he, hes⟩ := List.forall_mem_append.mp hes
    exact (builds_ofExpr e he).bind fun _ he => (builds_ofExprs es hes).bind fun _ hes =>
      .pure (List.forall_mem_cons.mpr ⟨he, hes⟩)
end

theorem numbered_of_build {b : Build Plain} {e : Plain} (hb : BuildsNumbered b) (h : build b = .ok e) : e.Numbered := by
  obtain ⟨found, hrun, h⟩ := bind_eq_ok h
  cases h
  exact (hb _ _ _ trivial hrun).2

end Plain

/-! ### Expressions with hard parts -/

namespace Tree

/-- Groups are counted from one on, and no loop keeps its place in a slot of the whole match. -/
def Numbered : Tree → Prop
  | empty | text _ | any _ | assertion _ | backref _ | groupMatched _ | keepOut | searchStart => True
  | plain e first stop => e.Numbered ∧ (0 < first ∨ stop = first)
  | seq a b | alt a b => a.Numbered ∧ b.Numbered
  | group index body => 0 < index ∧ body.Numbered
  | repeated body .. | look _ _ body | atomic body => body.Numbered
  | repeatedEmpty body _ _ mark => 2 ≤ mark ∧ body.Numbered
  | conditional condition ifTrue ifFalse => condition.Numbered ∧ ifTrue.Numbered ∧ ifFalse.Numbered

/-- What was built is numbered, and the slots of the whole match are not given away. -/
abbrev BuildsNumbered (b : Build Tree) : Prop := Builds (2 ≤ ·) Numbered b

abbrev BuildsAll (b : Build (List Tree)) : Prop := Builds (2 ≤ ·) (fun ts => ∀ t ∈ ts, t.Numbered) b

/-- What the parts have and a sequence keeps, a list of parts has. -/
theorem ofList_has {P : Tree → Prop} (hempty : P .empty) (hseq : ∀ {a b}, P a → P b → P (.seq a b)) {ts : List Tree}
    (h : ∀ t ∈ ts, P t) : P (ofList ts) := by
  induction ts with
  | nil => exact hempty
  | cons t ts ih =>
    obtain ⟨ht, hts⟩ := List.forall_mem_cons.mp h
    cases ts with
    | nil => exact ht
    | cons => exact hseq ht (ih hts)

/-- What the branches have and a choice keeps, a list of branches has. -/
theorem choice_has {P : Tree → Prop} (hempty : P .empty) (halt : ∀ {a b}, P a → P b → P (.alt a b)) {ts : List Tree}
    (h : ∀ t ∈ ts, P t) : P (choice ts) := by
  induction ts with
  | nil => exact hempty
  | cons t ts ih =>
    obtain ⟨ht, hts⟩ := List.forall_mem_cons.mp h
    cases ts with
    | nil => exact ht
    | cons => exact halt ht (ih hts)

theorem numbered_ofList {ts : List Tree} (h : ∀ t ∈ ts, t.Numbered) : (ofList ts).Numbered :=
  ofList_has trivial And.intro h

theorem numbered_choice {ts : List Tree} (h : ∀ t ∈ ts, t.Numbered) : (choice ts).Numbered :=
  choice_has trivial And.intro h

theorem builds_freshMark : Builds (2 ≤ ·) (2 ≤ ·) freshMark := by
  rintro n a n' hn ⟨⟩
  exact ⟨Nat.le_succ_of_le hn, hn⟩

theorem builds_ofEasy {parts : List Expr} (h : ∀ i ∈ Expr.groupsOf parts, 0 < i) : BuildsAll (ofEasy parts) := by
  unfold ofEasy
  refine .ite (fun _ => .pure nofun) fun _ => ?_
  split
  · exact .pure (List.forall_mem_singleton.mpr trivial)
  · refine Builds.bind (.lift fun e he => Plain.numbered_of_build ?_ he) fun e he => .pure ?_
    · exact (Plain.builds_ofExprs parts h).bind fun _ hes => .pure (Plain.numbered_ofList hes)
    · refine List.forall_mem_singleton.mpr ⟨he, ?_⟩
      cases hmin : (Expr.groupsOf parts).min? with
      | none =>
        rw [List.min?_eq_none_iff.mp hmin]
        exact Or.inr rfl
      | some first => exact Or.inl (h first (List.min?_mem hmin))

theorem builds_lookaround {direction : Direction} {negative : Bool} {shape : Expr.Shape} {body : Tree}
    (h : body.Numbered) : BuildsNumbered (lookaround direction negative shape body) := by
  cases direction with
  | ahead => exact .pure h
  | behind => exact .ite (fun _ => .pure h) fun _ => .throw

theorem builds_lookarounds {direction : Direction} {negative : Bool} {bodies : List (Expr.Shape × Tree)}
    (h : ∀ t ∈ bodies.map Prod.snd, t.Numbered) :
    BuildsAll (bodies.mapM fun (shape, body) => lookaround direction negative shape body) := by
  induction bodies with
  | nil => exact .pure nofun
  | cons body bodies ih =>
    obtain ⟨hbody, hbodies⟩ := List.forall_mem_cons.mp h
    rw [List.mapM_cons]
    exact (builds_lookaround hbody).bind fun _ ht => (ih hbodies).bind fun _ hts =>
      .pure (List.forall_mem_cons.mpr ⟨ht, hts⟩)

theorem builds_sequence {refs : List Nat} {hard : Bool} {parts : List Expr} {trees : List Tree}
    (hparts : ∀ i ∈ Expr.groupsOf parts, 0 < i) (htrees : ∀ t ∈ trees, t.Numbered) :
    BuildsNumbered (sequence refs hard parts trees) := by
  have hsub : ∀ {sub}, sub ⊆ parts → ∀ i ∈ Expr.groupsOf sub, 0 < i := by
    intro sub hsub i hi
    obtain ⟨e, he, hi⟩ := Expr.mem_groupsOf.mp hi
    exact hparts i (Expr.mem_groupsOf.mpr ⟨e, hsub he, hi⟩)
  refine (builds_ofEasy (hsub (List.take_subset _ _))).bind fun opening hopening => ?_
  refine (builds_ofEasy (hsub (List.drop_subset _ _))).bind fun closing hclosing => .pure (numbered_ofList ?_)
  simp only [List.forall_mem_append]
  refine ⟨⟨hopening, fun t ht => htrees t (List.take_subset _ _ (List.drop_subset _ _ ht))⟩, hclosing⟩

theorem builds_easy {e : Expr} (he : e.Numbered) : BuildsNumbered (do return ofList (← ofEasy [e])) := by
  refine (builds_ofEasy ?_).bind fun _ hts => .pure (numbered_ofList hts)
  simp only [Expr.groupsOf, List.append_nil]
  exact he

mutual
theorem builds_ofExpr (refs : List Nat) (hard : Bool) (e : Expr) (he : e.Numbered) :
    BuildsNumbered (ofExpr refs hard e) := by
  cases e with
  | concat parts =>
    unfold ofExpr
    exact .ite (fun _ => builds_easy he) fun _ => (builds_ofExprs refs true parts he).bind fun _ hts =>
      builds_sequence he hts
  | alt branches =>
    unfold ofExpr
    exact .ite (fun _ => builds_easy he) fun _ =>
      (builds_ofExprs refs hard branches he).bind fun _ hts => .pure (numbered_choice hts)
  | group index body =>
    obtain ⟨hindex, hbody⟩ := List.forall_mem_cons.mp he
    unfold ofExpr
    exact .ite (fun _ => builds_easy he) fun _ => (builds_ofExpr refs hard body hbody).bind fun _ ht =>
      .pure ⟨hindex, ht⟩
  | repeated body least most greedy =>
    unfold ofExpr
    refine .ite (fun _ => builds_easy he) fun _ => .ite (fun _ => ?_) fun _ => ?_
    · exact (builds_ofExpr refs hard body he).bind fun _ ht => builds_freshMark.bind fun _ hmark => .pure ⟨hmark, ht⟩
    · exact (builds_ofExpr refs hard body he).bind fun _ ht => .pure ht
  | atomic body => exact (builds_ofExpr refs false body he).bind fun _ ht => .pure ht
  | conditional c t f =>
    obtain ⟨hct, hf⟩ := List.forall_mem_append.mp he
    obtain ⟨hc, ht⟩ := List.forall_mem_append.mp hct
    exact (builds_ofExpr refs hard c hc).bind fun _ hc => (builds_ofExpr refs hard t ht).bind fun _ ht =>
      (builds_ofExpr refs hard f hf).bind fun _ hf => .pure ⟨hc, ht, hf⟩
  | literal | set => exact builds_easy he
  | backref | keepOut | searchStart | groupMatched | empty | any | assertion => exact .pure trivial
  | look direction negative body =>
    have hlook := fun direction => (builds_ofExpr refs false body he).bind fun _ ht =>
      @builds_lookaround direction negative (body.shape refs) _ ht
    cases direction with
    | ahead => exact hlook .ahead
    | behind =>
      cases body with
      | alt branches =>
        have hbodies := builds_ofExprs refs false branches he
        unfold ofExpr
        refine .ite (fun _ => .ite (fun _ => ?_) fun _ => ?_) fun _ => ?_
        · exact (hbodies.map fun _ hts => numbered_choice hts).bind fun _ ht => builds_lookaround ht
        · have heasy : BuildsNumbered (ofList <$> ofEasy [.alt branches]) := builds_easy he
          exact heasy.bind fun _ ht => builds_lookaround ht
        · refine hbodies.bind fun bodies hbodies => (builds_lookarounds ?_).bind fun looks hlooks => .pure ?_
          · intro t ht
            obtain ⟨⟨shape, t⟩, hmem, rfl⟩ := List.mem_map.mp ht
            exact hbodies t (List.of_mem_zip hmem).2
          · split
            · exact numbered_ofList hlooks
            · exact numbered_choice hlooks
      | _ => exact hlook .behind

theorem builds_ofExprs (refs : List Nat) (hard : Bool) (es : List Expr) (hes : ∀ i ∈ Expr.groupsOf es, 0 < i) :
    BuildsAll (ofExprs refs hard es) := by
  cases es with
  | nil => exact .pure nofun
  | cons e es =>
    obtain ⟨he, hes⟩ := List.forall_mem_append.mp hes
    exact (builds_ofExpr refs hard e he).bind fun _ ht => (builds_ofExprs refs hard es hes).bind fun _ hts =>
      .pure (List.forall_mem_cons.mpr ⟨ht, hts⟩)
end

end Tree

/-! ### Programs -/

namespace Program

theorem ofParsed_cases {parsed : Parsed} {program : Program} (h : ofParsed parsed = .ok program) :
    (parsed.expr.shape parsed.refs).hard = true ∧ (∃ e slots,
      (Tree.ofExpr parsed.refs true parsed.expr).run (2 * (parsed.groups + 1)) = .ok (e, slots) ∧
        program = .tree e (parsed.groups + 1) slots) ∨
    (parsed.expr.shape parsed.refs).hard = false ∧ ∃ e,
      Plain.build (Plain.ofExpr parsed.expr) = .ok e ∧ program = .plain e e.groupCount := by
  unfold ofParsed at h
  cases hhard : (parsed.expr.shape parsed.refs).hard with
  | true =>
    rw [hhard] at h
    obtain ⟨⟨e, slots⟩, hrun, h⟩ := bind_eq_ok h
    cases h
    exact Or.inl ⟨rfl, e, slots, hrun, rfl⟩
  | false =>
    rw [hhard] at h
    obtain ⟨e, hbuild, h⟩ := bind_eq_ok h
    cases h
    exact Or.inr ⟨rfl, e, hbuild, rfl⟩

/-- The slots of the whole match are there, and no part of the expression writes them unless it moves the start. -/
def Numbered : Program → Prop
  | plain .. => True
  | tree e _ slots => e.Numbered ∧ 2 ≤ slots

theorem numbered_ofParsed {parsed : Parsed} {program : Program} (he : parsed.expr.Numbered)
    (h : ofParsed parsed = .ok program) : program.Numbered := by
  rcases ofParsed_cases h with ⟨-, e, slots, hrun, rfl⟩ | ⟨-, e, -, rfl⟩
  · have hslots : 2 ≤ 2 * (parsed.groups + 1) := by omega
    exact (Tree.builds_ofExpr _ _ _ he _ _ _ hslots hrun).symm
  · trivial

end Program
end Highlight.Regex
