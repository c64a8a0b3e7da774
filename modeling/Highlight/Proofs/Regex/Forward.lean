import Highlight.Proofs.Regex.Alike
import Highlight.Proofs.Regex.Numbering
import Highlight.Proofs.Regex.Wrapped

/-! Patterns without lookbehind. A lookbehind is read only where the text has the opening of one, whose parenthesis may be
    parted from what follows by blanks and comments (`Parser.forward_parse`), and what is prepared from an expression without
    lookbehind goes back over no text (`Program.looksBack_ofParsed`). -/

namespace Highlight.Regex

/-! ### Expressions -/

namespace Expr

mutual
/-- No part of the expression looks behind. -/
def Forward : Expr → Prop
  | look direction _ body => direction = .ahead ∧ body.Forward
  | group _ body | repeated body .. | atomic body => body.Forward
  | concat parts => ForwardAll parts
  | alt branches => ForwardAll branches
  | conditional condition ifTrue ifFalse => condition.Forward ∧ ifTrue.Forward ∧ ifFalse.Forward
  | _ => True

def ForwardAll : List Expr → Prop
  | [] => True
  | e :: es => e.Forward ∧ ForwardAll es
end

theorem forwardAll_iff {es : List Expr} : ForwardAll es ↔ ∀ e ∈ es, e.Forward := by
  induction es with
  | nil => exact ⟨fun _ _ h => absurd h List.not_mem_nil, fun _ => trivial⟩
  | cons e es ih => rw [ForwardAll, ih, List.forall_mem_cons]

theorem forward_ofParts {es : List Expr} (h : ∀ e ∈ es, e.Forward) : (ofParts es).Forward := by
  match es, h with
  | [], _ => trivial
  | [e], h => exact h e List.mem_cons_self
  | _ :: _ :: _, h => exact forwardAll_iff.mpr h

end Expr

/-! ### Preparing -/

namespace Tree

/-- What was built goes back over no text. -/
abbrev BuildsForward (b : Build Tree) : Prop := Builds (fun _ => True) (fun t => t.looksBack = false) b

abbrev BuildsForwardAll (b : Build (List Tree)) : Prop := Builds (fun _ => True) (fun ts => ∀ t ∈ ts, t.looksBack = false) b

theorem looksBack_ofList {ts : List Tree} (h : ∀ t ∈ ts, t.looksBack = false) : (ofList ts).looksBack = false :=
  ofList_has (P := fun t => t.looksBack = false) rfl (fun ha hb => Bool.or_eq_false_iff.mpr ⟨ha, hb⟩) h

theorem looksBack_choice {ts : List Tree} (h : ∀ t ∈ ts, t.looksBack = false) : (choice ts).looksBack = false :=
  choice_has (P := fun t => t.looksBack = false) rfl (fun ha hb => Bool.or_eq_false_iff.mpr ⟨ha, hb⟩) h

theorem forward_freshMark : Builds (fun _ => True) (fun _ => True) freshMark := fun _ _ _ _ _ => ⟨trivial, trivial⟩

theorem forward_ofEasy (parts : List Expr) : BuildsForwardAll (ofEasy parts) := by
  unfold ofEasy
  refine .ite (fun _ => .pure (List.forall_mem_nil _)) fun _ => ?_
  split
  · exact .pure (List.forall_mem_singleton.mpr rfl)
  · exact .bind (.lift (P := fun _ => True) fun _ _ => trivial) fun _ _ => .pure (List.forall_mem_singleton.mpr rfl)

theorem forward_easy (e : Expr) : BuildsForward (do return ofList (← ofEasy [e])) :=
  (forward_ofEasy [e]).bind fun _ hts => .pure (looksBack_ofList hts)

theorem forward_sequence {refs : List Nat} {hard : Bool} {parts : List Expr} {trees : List Tree}
    (h : ∀ t ∈ trees, t.looksBack = false) : BuildsForward (sequence refs hard parts trees) := by
  refine (forward_ofEasy _).bind fun opening hopening => (forward_ofEasy _).bind fun closing hclosing =>
    .pure (looksBack_ofList ?_)
  simp only [List.forall_mem_append]
  exact ⟨⟨hopening, fun t ht => h t (List.take_subset _ _ (List.drop_subset _ _ ht))⟩, hclosing⟩

mutual
theorem forward_ofExpr (refs : List Nat) (hard : Bool) (e : Expr) (he : e.Forward) : BuildsForward (ofExpr refs hard e) := by
  cases e with
  | concat parts =>
    unfold ofExpr
    exact .ite (fun _ => forward_easy _) fun _ => (forward_ofExprs refs true parts he).bind fun _ hts => forward_sequence hts
  | alt branches =>
    unfold ofExpr
    exact .ite (fun _ => forward_easy _) fun _ =>
      (forward_ofExprs refs hard branches he).bind fun _ hts => .pure (looksBack_choice hts)
  | group index body =>
    unfold ofExpr
    exact .ite (fun _ => forward_easy _) fun _ => (forward_ofExpr refs hard body he).bind fun _ ht => .pure ht
  | repeated body least most greedy =>
    unfold ofExpr
    refine .ite (fun _ => forward_easy _) fun _ => .ite (fun _ => ?_) fun _ => ?_
    · exact (forward_ofExpr refs hard body he).bind fun _ ht => forward_freshMark.bind fun _ _ => .pure ht
    · exact (forward_ofExpr refs hard body he).bind fun _ ht => .pure ht
  | atomic body => exact (forward_ofExpr refs false body he).bind fun _ ht => .pure ht
  | conditional c t f =>
    obtain ⟨hc, ht, hf⟩ := he
    refine (forward_ofExpr refs hard c hc).bind fun _ hc => (forward_ofExpr refs hard t ht).bind fun _ ht =>
      (forward_ofExpr refs hard f hf).bind fun _ hf => .pure ?_
    simp only [looksBack, hc, ht, hf, Bool.or_self]
  | literal | set => exact forward_easy _
  | backref | keepOut | searchStart | groupMatched | empty | any | assertion => exact .pure rfl
  | look direction negative body =>
    obtain ⟨rfl, hbody⟩ := he
    exact (forward_ofExpr refs false body hbody).bind fun _ ht => .pure ht

theorem forward_ofExprs (refs : List Nat) (hard : Bool) (es : List Expr) (hes : Expr.ForwardAll es) :
    BuildsForwardAll (ofExprs refs hard es) := by
  cases es with
  | nil => exact .pure nofun
  | cons e es =>
    exact (forward_ofExpr refs hard e hes.1).bind fun _ ht => (forward_ofExprs refs hard es hes.2).bind fun _ hts =>
      .pure (List.forall_mem_cons.mpr ⟨ht, hts⟩)
end

end Tree

/-- Whether a part of the program goes back over text. -/
def Program.looksBack : Program → Bool
  | plain .. => false
  | tree e _ _ => e.looksBack

theorem Program.looksBack_ofParsed {parsed : Parsed} {program : Program} (he : parsed.expr.Forward)
    (h : ofParsed parsed = .ok program) : program.looksBack = false := by
  rcases ofParsed_cases h with ⟨-, e, slots, hrun, rfl⟩ | ⟨-, e, -, rfl⟩
  · exact (Tree.forward_ofExpr _ _ _ he _ _ _ trivial hrun).2
  · rfl

/-! ### Openings -/

namespace Parser

/-- What a group begins with that looks behind. -/
def StartsBehind (cs : List Char) : Prop := ['?', '<', '='] <+: cs ∨ ['?', '<', '!'] <+: cs

/-- A parenthesis of the text opens a lookbehind, directly or behind blanks and comments. -/
def OpensBehind (text : List Char) : Prop :=
  ∃ verbose cs opened, '(' :: cs <:+ text ∧ skipGap verbose .between cs = some opened ∧ StartsBehind opened

theorem OpensBehind.of_suffix {cs text : List Char} (h : OpensBehind cs) (hcs : cs <:+ text) : OpensBehind text := by
  obtain ⟨verbose, inner, opened, hinner, hskip, hstarts⟩ := h
  exact ⟨verbose, inner, opened, hinner.trans hcs, hskip, hstarts⟩

/-- The text that is still to be read opens no lookbehind. -/
abbrev Clear (s : State) : Prop := ¬OpensBehind s.rest

/-- What is read, where no lookbehind is opened, does not look behind. -/
abbrev ReadsForward (p : Parser Expr) : Prop := Builds Clear Expr.Forward p

section
variable {α β : Type} {P Q : α → Prop} {cs : List Char}

theorem builds_any {p : Parser α} : Builds (fun _ => True) (fun _ => True) p := fun _ _ _ _ _ => ⟨trivial, trivial⟩

/-- A reader that is followed reads from the front of the text. -/
theorem clear_of_follows {p q : Parser α} {P : α → State → Prop} (h : ∀ {w s tail}, Follows w P p q s tail) :
    Builds Clear (fun _ => True) p := by
  intro s a s' hs hrun
  have hkept := (@h ⟨false, s.bound, true⟩ s _ (.closing _ s) (Nat.le_refl _) a s' hrun).1
  exact ⟨fun hopens => hs (hopens.of_suffix hkept.rest), trivial⟩

theorem clear_rest : Builds Clear (fun cs => ¬OpensBehind cs) rest := by
  rintro s cs s' hs ⟨⟩
  exact ⟨hs, hs⟩

theorem clear_get : Builds Clear Clear get := by
  rintro s a s' hs ⟨⟩
  exact ⟨hs, hs⟩

theorem clear_modify {f : State → State} (hf : ∀ s, (f s).rest = s.rest) : Builds Clear (fun _ => True) (modify f) := by
  rintro s a s' hs ⟨⟩
  refine ⟨?_, trivial⟩
  rw [Clear, hf]
  exact hs

theorem clear_flags : Builds Clear (fun _ => True) flags := by
  rintro s a s' hs ⟨⟩
  exact ⟨hs, trivial⟩

theorem clear_setRest (h : ¬OpensBehind cs) : Builds Clear (fun _ => True) (setRest cs) := by
  rintro s a s' hs ⟨⟩
  exact ⟨h, trivial⟩

theorem clear_gap : Builds Clear (fun _ => True) gap := by
  intro s a s' hs hrun
  have hgap : (gap >>= pure).run s = .ok (a, s') := by rwa [bind_pure]
  rw [run_gap_bind] at hgap
  split at hgap
  · rename_i cs hskip
    cases hgap
    exact ⟨fun hopens => hs (hopens.of_suffix (skipGap_suffix hskip)), trivial⟩
  · cases hgap

end

/-! ### Reading pieces -/

theorem not_opensBehind_cons {c : Char} {cs : List Char} (h : ¬OpensBehind (c :: cs)) : ¬OpensBehind cs :=
  fun hopens => h (hopens.of_suffix (List.suffix_cons c cs))

/-- An expression that an escape stands for does not look behind. -/
def ForwardEscape (e : Escape) : Prop := ∀ expr, e = .expr expr → expr.Forward

theorem forwardEscape_char (c : Char) (ignoreCase : Bool) : ForwardEscape (.char c ignoreCase) := by
  rintro expr ⟨⟩

theorem forwardEscape_set (set : CharSet) : ForwardEscape (.set set) := by
  rintro expr ⟨⟩

theorem forwardEscape_backref (n : Nat) : ForwardEscape (.backref n) := by
  rintro expr ⟨⟩

theorem forward_namedEscape (cs : List Char) : Builds (fun _ => True) ForwardEscape
    (match cs with
      | '\'' :: _ => do return .backref (← namedGroup ['\''] ['\''] true)
      | _ => do return .backref (← namedGroup ['<'] ['>'] true)) := by
  split
  · exact builds_any.bind fun _ _ => .pure (forwardEscape_backref _)
  · exact builds_any.bind fun _ _ => .pure (forwardEscape_backref _)

theorem forward_escape {inClass : Bool} : Builds Clear ForwardEscape (escape inClass) := by
  suffices hvalue : Builds (fun _ => True) ForwardEscape (escape inClass) from
    fun s a s' hs hrun => ⟨(clear_of_follows follows_escape s a s' hs hrun).1, (hvalue s a s' trivial hrun).2⟩
  have hexpr : ∀ {expr : Expr}, expr.Forward → Builds (fun _ : State => True) ForwardEscape (pure (.expr expr)) := by
    intro expr hexpr
    refine .pure ?_
    rintro _ ⟨⟩
    exact hexpr
  have hboundary : ∀ {a : Assertion}, Builds (fun _ => True) ForwardEscape (boundary a) := by
    intro a
    refine builds_any.bind fun cs _ => ?_
    split
    · exact .throw
    · exact hexpr trivial
  refine builds_any.bind fun f _ => builds_any.bind fun cs _ => ?_
  cases cs with
  | nil => exact .throw
  | cons c cs =>
    refine .ite (fun _ => builds_any.bind fun n _ => .pure (forwardEscape_backref n)) fun _ => builds_any.bind fun _ _ => ?_
    by_cases hassertion : c ∈ ['A', 'z', 'b', 'B', '<', '>', 'K', 'G']
    · simp only [List.mem_cons, List.not_mem_nil, or_false] at hassertion
      rcases hassertion with rfl | rfl | rfl | rfl | rfl | rfl | rfl | rfl <;> cases inClass <;>
        first
        | exact hexpr trivial
        | exact hboundary
        | exact .pure (forwardEscape_char _ _)
    · simp only [List.mem_cons, List.not_mem_nil, or_false, not_or] at hassertion
      obtain ⟨hA, hz, hb, hB, hl, hr, hK, hG⟩ := hassertion
      by_cases hk : c = 'k'
      · subst hk
        cases inClass with
        | false => exact forward_namedEscape cs
        | true => exact .pure (forwardEscape_char _ _)
      · simp only [ite_self]
        split <;>
          first
          | exact .pure (forwardEscape_set _)
          | exact .pure (forwardEscape_char _ _)
          | exact builds_any.bind fun _ _ => .pure (forwardEscape_char _ _)
          | exact builds_any.bind fun _ _ => .pure (forwardEscape_set _)
          | exact .ite (fun _ => .throw) fun _ => .pure (forwardEscape_char _ _)

theorem forward_bracketed : ReadsForward bracketed := by
  suffices hvalue : Builds (fun _ => True) Expr.Forward bracketed from
    fun s a s' hs hrun => ⟨(clear_of_follows follows_bracketed s a s' hs hrun).1, (hvalue s a s' trivial hrun).2⟩
  rw [bracketed_eq]
  refine builds_any.bind fun f _ => builds_any.bind fun cs _ => builds_any.bind fun _ _ => builds_any.bind fun items _ => ?_
  split
  · exact .pure trivial
  · refine .pure (Expr.forwardAll_iff.mpr (List.forall_mem_cons.mpr ⟨trivial, fun e he => ?_⟩))
    obtain ⟨i, -, hi⟩ := List.mem_filterMap.mp he
    obtain ⟨c, -, rfl⟩ := Option.map_eq_some_iff.mp hi
    trivial
  · exact .throw

theorem forward_possessive {e : Expr} (he : e.Forward) : ReadsForward (possessive e) := by
  refine clear_rest.bind fun cs hcs => ?_
  split
  · exact (clear_setRest (not_opensBehind_cons hcs)).bind fun _ _ => .pure he
  · exact .pure he

theorem forward_quantified {atom : Expr} (hatom : atom.Forward) : ReadsForward (quantified atom) := by
  rw [quantified_eq]
  refine clear_get.bind fun s hs => ?_
  split
  · exact .pure hatom
  · rename_i least most cs hquantifier
    have hcs : ¬OpensBehind cs := fun hopens => hs (hopens.of_suffix (suffix_of_quantifier? hquantifier))
    refine .ite (fun _ => .throw_bind) fun _ => ?_
    refine (clear_setRest hcs).bind fun _ _ => clear_gap.bind fun _ _ => clear_rest.bind fun cs hcs => ?_
    split
    · exact (clear_setRest (not_opensBehind_cons hcs)).bind fun _ _ => forward_possessive hatom
    · exact forward_possessive hatom

/-! ### Reading groups -/

theorem clear_closeGroup : Builds Clear (fun _ => True) closeGroup := clear_of_follows follows_closeGroup

section
variable {inner : Parser Expr} (hinner : ReadsForward inner)
include hinner

theorem forward_flagGroup_go (old : Flags) (start fuel : Nat) (negated : Bool) :
    ReadsForward (flagGroup.go inner old start fuel negated) := by
  induction fuel generalizing negated with
  | zero => exact .throw
  | succ fuel ih =>
    refine clear_gap.bind fun _ _ => clear_flags.bind fun f _ => clear_rest.bind fun cs hcs => ?_
    cases cs with
    | nil => exact .throw
    | cons c cs =>
      have hflags : ∀ f : Flags, Builds Clear (fun _ => True) (setFlags f) := fun f => clear_modify fun _ => rfl
      refine (clear_setRest (not_opensBehind_cons hcs)).bind fun _ _ => ?_
      split
      case h_6 | h_7 => exact .ite (fun _ => .throw) fun _ => ih _
      case h_8 => exact .ite (fun _ => .throw) fun _ => .pure trivial
      case h_9 =>
        refine .ite (fun _ => .throw_bind) fun _ => hinner.bind fun body hbody => clear_rest.bind fun cs hcs => ?_
        split
        · exact (clear_setRest (not_opensBehind_cons hcs)).bind fun _ _ => (hflags _).bind fun _ _ => .pure hbody
        · exact .throw
      case h_10 => exact .throw
      all_goals exact (hflags _).bind fun _ _ => ih _

theorem forward_flagGroup : ReadsForward (flagGroup inner) :=
  clear_flags.bind fun _ _ => clear_rest.bind fun _ _ => forward_flagGroup_go hinner _ _ _ _

omit hinner in
theorem forward_branchesOf {e : Expr} (he : e.Forward) : (branchesOf e).1.Forward ∧ (branchesOf e).2.Forward := by
  unfold branchesOf
  split
  · rename_i first rest
    obtain ⟨hfirst, hrest⟩ := he
    refine ⟨hfirst, ?_⟩
    dsimp only
    split
    · exact hrest.1
    · exact hrest
  · exact ⟨he, trivial⟩

theorem forward_conditionalBody {condition : Expr} (hcondition : condition.Forward) :
    ReadsForward (conditionalBody inner condition) := by
  refine clear_closeGroup.bind fun _ _ => clear_rest.bind fun _ _ => hinner.bind fun body hbody =>
    clear_rest.bind fun _ _ => .ite (fun _ => ?_) fun _ => ?_
  · split
    · exact clear_closeGroup.bind fun _ _ => .pure hcondition
    · exact .throw_bind
  · obtain ⟨htrue, hfalse⟩ := forward_branchesOf hbody
    exact clear_closeGroup.bind fun _ _ => .ite (fun _ => .pure hcondition) fun _ => .pure ⟨hcondition, htrue, hfalse⟩

theorem forward_conditional : ReadsForward (conditional inner) := by
  have hmatched : ∀ {p : Parser Nat}, Builds Clear (fun _ => True) p →
      ReadsForward (do conditionalBody inner (.groupMatched (← p))) :=
    fun hp => hp.bind fun _ _ => forward_conditionalBody hinner trivial
  rw [conditional_eq]
  refine clear_rest.bind fun cs _ => ?_
  split
  · exact .throw
  · exact hmatched (clear_of_follows (follows_namedGroup fun _ => by simp))
  · exact hmatched (clear_of_follows (follows_namedGroup fun _ => by simp))
  · refine .ite (fun _ => hmatched (clear_of_follows follows_numberedGroup)) fun _ => hinner.bind fun e he =>
      forward_conditionalBody hinner ?_
    cases e <;> exact he

theorem forward_groupBody {wrap : Expr → Expr} (hwrap : ∀ e, e.Forward → (wrap e).Forward) :
    ReadsForward (groupBody inner wrap) :=
  hinner.bind fun e he => clear_closeGroup.bind fun _ _ => .pure (hwrap e he)

theorem forward_indexed {p : Parser Nat} (hp : Builds Clear (fun _ => True) p) :
    ReadsForward (do groupBody inner (.group (← p))) :=
  hp.bind fun _ _ => forward_groupBody hinner fun _ he => he

/-- What a group is, is told by what it begins with, and it looks behind only if it begins so. -/
theorem exists_opening : ∃ f : List Char → Parser Expr, group inner = (do gap; f (← rest)) ∧
    ∀ opened, ¬OpensBehind opened → ¬StartsBehind opened → ReadsForward (f opened) := by
  refine ⟨_, rfl, fun opened hopened hstarts => ?_⟩
  have hset : ∀ {cs}, cs <:+ opened → Builds Clear (fun _ => True) (setRest cs) :=
    fun hsuffix => clear_setRest fun hopens => hopened (hopens.of_suffix hsuffix)
  have hone : ∀ {c d : Char} {cs}, opened = c :: d :: cs → d :: cs <:+ opened := fun h => h ▸ List.suffix_cons _ _
  have htwo : ∀ {c d : Char} {cs}, opened = c :: d :: cs → cs <:+ opened := fun h => h ▸ ⟨[_, _], rfl⟩
  have hthree : ∀ {c d e : Char} {cs}, opened = c :: d :: e :: cs → cs <:+ opened := fun h => h ▸ ⟨[_, _, _], rfl⟩
  have hnamed : ∀ {opening close : List Char}, Builds Clear (fun _ => True) (newNamedGroup opening close) :=
    clear_of_follows follows_newNamedGroup
  have hback : Builds Clear (fun _ => True) (namedGroup [] [')'] false) :=
    clear_of_follows (follows_namedGroup fun h => nomatch h)
  have hlook : ∀ {negative : Bool} {cs}, cs <:+ opened → ReadsForward (do
      setRest cs
      groupBody inner (.look .ahead negative)) := fun h =>
    (hset h).bind fun _ _ => forward_groupBody hinner fun _ he => ⟨rfl, he⟩
  split
  · exact hlook (htwo rfl)
  · exact hlook (htwo rfl)
  · exact absurd (.inl ⟨_, rfl⟩) hstarts
  · exact absurd (.inr ⟨_, rfl⟩) hstarts
  · exact (hset (hone rfl)).bind fun _ _ => forward_indexed hinner hnamed
  · exact (hset (hone rfl)).bind fun _ _ => forward_indexed hinner hnamed
  · exact (hset ⟨['?', 'P'], rfl⟩).bind fun _ _ => forward_indexed hinner hnamed
  · exact (hset (hthree rfl)).bind fun _ _ => hback.bind fun _ _ => .pure trivial
  · exact (hset (htwo rfl)).bind fun _ _ => forward_groupBody hinner fun _ he => he
  · exact (hset (htwo rfl)).bind fun _ _ => forward_conditional hinner
  · exact (hset (List.suffix_cons _ _)).bind fun _ _ => forward_flagGroup hinner
  · exact forward_indexed hinner (clear_of_follows follows_newGroup)

/-- Behind the parenthesis of a group, blanks and comments are skipped before it is told what the group is. -/
theorem forward_group {cs : List Char} (hcs : ¬OpensBehind ('(' :: cs)) : ReadsForward (do setRest cs; group inner) := by
  obtain ⟨f, hgroup, hf⟩ := exists_opening hinner
  intro s e s' _ hrun
  have hrun : (group inner).run { s with rest := cs } = .ok (e, s') := hrun
  rw [hgroup, run_gap_bind] at hrun
  split at hrun
  · rename_i opened hskip
    have hopened : ¬OpensBehind opened :=
      fun hopens => hcs ((hopens.of_suffix (skipGap_suffix hskip)).of_suffix (List.suffix_cons _ _))
    have hstarts : ¬StartsBehind opened := fun hstarts => hcs ⟨_, cs, opened, List.suffix_rfl, hskip, hstarts⟩
    exact hf opened hopened hstarts _ e s' hopened hrun
  · cases hrun

end

/-! ### Reading patterns -/

/-- What is found, if anything is, does not look behind. -/
abbrev FoundForward (found : Option Expr) : Prop := ∀ e, found = some e → e.Forward

section
variable {inner : Option (Parser Expr)} (hinner : ∀ p, inner = some p → ReadsForward p)
include hinner

theorem forward_atom : Builds Clear FoundForward (atom inner) := by
  have hfound : ∀ {e : Expr}, e.Forward → FoundForward (some e) := by
    rintro e he _ ⟨⟩
    exact he
  refine clear_gap.bind fun _ _ => clear_flags.bind fun f _ => clear_rest.bind fun cs hcs => ?_
  cases cs with
  | nil => exact .pure nofun
  | cons c cs =>
    have hset := clear_setRest (not_opensBehind_cons hcs)
    have htaken : ∀ {e : Expr}, e.Forward → Builds Clear FoundForward (do setRest cs; return some e) :=
      fun he => hset.bind fun _ _ => .pure (hfound he)
    dsimp only
    split
    case h_4 =>
      cases inner with
      | none => exact hset.bind fun _ _ => .throw
      | some p => exact @Builds.map _ _ _ _ _ _ _ some (forward_group (hinner p rfl) hcs) fun _ he => hfound he
    case h_5 =>
      refine hset.bind fun _ _ => forward_escape.bind fun e he => ?_
      cases e with
      | expr e => exact .pure (hfound (he e rfl))
      | backref n =>
        refine Builds.bind (clear_modify ?_) fun _ _ => .pure (hfound trivial)
        exact fun _ => rfl
      | char | set => exact .pure (hfound trivial)
    case h_6 | h_7 | h_8 | h_9 | h_10 => exact .pure nofun
    case h_11 => exact hset.bind fun _ _ => forward_bracketed.bind fun _ he => .pure (hfound he)
    all_goals exact htaken trivial

theorem forward_piece : Builds Clear FoundForward (piece inner) := by
  refine (forward_atom hinner).bind fun found hfound => clear_gap.bind fun _ _ => ?_
  cases found with
  | some e =>
    refine (forward_quantified (hfound e rfl)).bind fun _ he => .pure ?_
    rintro _ ⟨⟩
    exact he
  | none =>
    refine clear_rest.bind fun cs _ => ?_
    split
    · exact .throw
    · exact .throw
    · exact .throw
    · exact .pure nofun

theorem forward_pieces (fuel : Nat) : Builds Clear (fun es => ∀ e ∈ es, e.Forward) (pieces inner fuel) := by
  induction fuel with
  | zero => exact .pure nofun
  | succ fuel ih =>
    refine (forward_piece hinner).bind fun found hfound => ?_
    cases found with
    | none => exact .pure nofun
    | some e =>
      refine ih.bind fun es hes => .pure ?_
      split
      · exact hes
      · exact List.forall_mem_cons.mpr ⟨hfound e rfl, hes⟩

theorem forward_branch : ReadsForward (branch inner) :=
  clear_rest.bind fun _ _ => (forward_pieces hinner _).bind fun _ hes => .pure (Expr.forward_ofParts hes)

theorem forward_branches (fuel : Nat) : Builds Clear (fun es => ∀ e ∈ es, e.Forward) (branches inner fuel) := by
  induction fuel with
  | zero => exact .pure nofun
  | succ fuel ih =>
    refine clear_rest.bind fun cs hcs => ?_
    split
    · exact (clear_setRest (not_opensBehind_cons hcs)).bind fun _ _ => (forward_branch hinner).bind fun e he =>
        clear_gap.bind fun _ _ => ih.bind fun es hes => .pure (List.forall_mem_cons.mpr ⟨he, hes⟩)
    · exact .pure nofun

theorem forward_alternation : ReadsForward (alternation inner) := by
  refine (forward_branch hinner).bind fun first hfirst => clear_gap.bind fun _ _ => clear_rest.bind fun _ _ =>
    (forward_branches hinner _).bind fun others hothers => ?_
  split
  · exact clear_get.bind fun _ _ => .ite (fun _ => .throw_bind) fun _ => .pure hfirst
  · exact .pure (Expr.forwardAll_iff.mpr (List.forall_mem_cons.mpr ⟨hfirst, hothers⟩))

end

theorem forward_pattern (depth : Nat) : ReadsForward (pattern depth) := by
  induction depth with
  | zero => exact .throw
  | succ depth ih =>
    refine forward_alternation fun p hp => ?_
    split at hp
    · cases hp
    · exact Option.some.inj hp ▸ ih

/-- A pattern looks behind only if its text opens a lookbehind. -/
theorem forward_parse {text : List Char} {parsed : Parsed} (h : parse text = .ok parsed) (htext : ¬OpensBehind text) :
    parsed.expr.Forward := by
  obtain ⟨s, hrun, -, -⟩ := parse_inv h
  exact (forward_pattern maxDepth _ _ s htext hrun).2

end Parser

theorem Program.looksBack_compile {text : List Char} {program : Program} (h : compile text = .ok program)
    (htext : ¬Parser.OpensBehind text) : program.looksBack = false := by
  obtain ⟨parsed, hparse, hprogram⟩ := bind_eq_ok h
  exact looksBack_ofParsed (Parser.forward_parse hparse htext) hprogram

end Highlight.Regex
