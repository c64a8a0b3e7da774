import Highlight.Format.Tree
import Highlight.Proofs.Delimiters

/-! The drawing of tokens. It has a line for every token, in the order in which tokens begin, and the margin of a line says
    for the token and for each of those around it whether another one follows on the same level. So the drawing tells the
    places of the tokens, and with them which stand in which (`renderTree_shows`). -/

namespace Highlight.Token

/-! ### Places -/

/-- The token at a place: a place is the number of the token on its level, behind the numbers of those around it. -/
def at? : List Token → List Nat → Option Token
  | _, [] => none
  | tokens, [i] => tokens[i]?
  | tokens, i :: j :: place => tokens[i]?.bind fun t => at? t.children (j :: place)

/-- The place in a list that has one more token in front. -/
def nextPlace : List Nat → List Nat
  | i :: place => (i + 1) :: place
  | [] => []

mutual
/-- All tokens with their places, each in front of those inside it. -/
def preorder : List Token → List (List Nat × Token)
  | [] => []
  | ⟨name, aliasName, content, span⟩ :: ts =>
    ([0], ⟨name, aliasName, content, span⟩) ::
      ((preorderInside content).map (Prod.map (0 :: ·) id) ++ (preorder ts).map (Prod.map nextPlace id))

def preorderInside : Content → List (List Nat × Token)
  | .text _ => []
  | .nested tokens => preorder tokens
end

/-- The places of all tokens. -/
def places (tokens : List Token) : List (List Nat) := (preorder tokens).map (·.1)

/-- What holds of all lists of tokens, if it holds of a list whenever it holds of the tokens inside its first one and of
    those behind that. -/
@[elab_as_elim]
theorem forest_induction {P : List Token → Prop} (nil : P []) (cons : ∀ t ts, P t.children → P ts → P (t :: ts)) :
    ∀ tokens, P tokens
  | [] => nil
  | ⟨_, _, .text _, _⟩ :: ts => cons _ ts nil (forest_induction nil cons ts)
  | ⟨_, _, .nested tokens, _⟩ :: ts => cons _ ts (forest_induction nil cons tokens) (forest_induction nil cons ts)

section
variable {t u : Token} {ts us : List Token} {place : List Nat}

theorem preorder_cons : preorder (t :: ts) =
    ([0], t) :: ((preorder t.children).map (Prod.map (0 :: ·) id) ++ (preorder ts).map (Prod.map nextPlace id)) := by
  obtain ⟨name, aliasName, content, span⟩ := t
  cases content <;> simp [preorder, preorderInside, children]

theorem mem_map_place {f : List Nat → List Nat} {ps : List (List Nat × Token)} :
    (place, u) ∈ ps.map (Prod.map f id) ↔ ∃ inner, (inner, u) ∈ ps ∧ f inner = place := by
  simp [Prod.map]

theorem at?_nil : at? ts [] = none := by
  cases ts <;> rfl

theorem at?_first (h : place ≠ []) : at? (t :: ts) (0 :: place) = at? t.children place := by
  obtain ⟨i, place, rfl⟩ := List.exists_cons_of_ne_nil h
  simp [at?]

theorem at?_nextPlace : at? (t :: ts) (nextPlace place) = at? ts place := by
  rcases place with _ | ⟨i, _ | ⟨j, place⟩⟩ <;> simp [at?, nextPlace]

/-- The places of tokens are those at which there is a token. -/
theorem mem_preorder : (place, u) ∈ preorder ts ↔ at? ts place = some u := by
  induction ts using forest_induction generalizing place with
  | nil => rcases place with _ | ⟨i, _ | ⟨j, place⟩⟩ <;> simp [preorder, at?]
  | cons t ts inner rest =>
    simp only [preorder_cons, List.mem_cons, List.mem_append, mem_map_place, inner, rest]
    constructor
    · rintro (h | ⟨inside, h, rfl⟩ | ⟨behind, h, rfl⟩)
      · obtain ⟨rfl, rfl⟩ := Prod.mk.inj h
        rfl
      · have hne : inside ≠ [] := by
          rintro rfl
          rw [at?_nil] at h
          cases h
        rwa [at?_first hne]
      · rwa [at?_nextPlace]
    · intro h
      rcases place with _ | ⟨_ | i, place⟩
      · cases h
      · cases place with
        | nil => exact Or.inl (congrArg _ (Option.some.inj h).symm)
        | cons j place => exact Or.inr (Or.inl ⟨_, (at?_first (List.cons_ne_nil j place)).symm.trans h, rfl⟩)
      · exact Or.inr (Or.inr ⟨i :: place, at?_nextPlace.symm.trans h, rfl⟩)

theorem ne_nil_of_mem_preorder {p : List Nat × Token} (h : p ∈ preorder ts) : p.1 ≠ [] := by
  obtain ⟨place, u⟩ := p
  rintro rfl
  rw [mem_preorder, at?_nil] at h
  cases h

theorem ne_nil_of_mem_places (h : place ∈ places ts) : place ≠ [] := by
  obtain ⟨p, hmem, rfl⟩ := List.mem_map.mp h
  exact ne_nil_of_mem_preorder hmem

theorem places_cons : places (t :: ts) = [0] :: ((places t.children).map (0 :: ·) ++ (places ts).map nextPlace) := by
  simp [places, preorder_cons, Function.comp_def]

theorem nextPlace_lt {place' : List Nat} (hne : place ≠ []) (hne' : place' ≠ []) (h : place < place') :
    nextPlace place < nextPlace place' := by
  obtain ⟨i, place, rfl⟩ := List.exists_cons_of_ne_nil hne
  obtain ⟨j, place', rfl⟩ := List.exists_cons_of_ne_nil hne'
  simpa [nextPlace, List.cons_lt_cons_iff] using h

theorem cons_zero_lt_nextPlace {place' : List Nat} (h : place' ≠ []) : 0 :: place < nextPlace place' := by
  obtain ⟨j, place', rfl⟩ := List.exists_cons_of_ne_nil h
  simp [nextPlace, List.cons_lt_cons_iff]

/-- Places are in their order: those inside a token come behind it, and before those behind it. -/
theorem places_sorted : (places ts).Pairwise (· < ·) := by
  induction ts using forest_induction with
  | nil => exact List.Pairwise.nil
  | cons t ts inner rest =>
    rw [places_cons, List.pairwise_cons, List.pairwise_append, List.pairwise_map, List.pairwise_map]
    refine ⟨?_, inner.imp fun h => by simpa [List.cons_lt_cons_iff] using h, ?_, ?_⟩
    · simp only [List.mem_append, List.mem_map]
      rintro _ (⟨inside, hmem, rfl⟩ | ⟨behind, hmem, rfl⟩)
      · obtain ⟨i, inside, rfl⟩ := List.exists_cons_of_ne_nil (ne_nil_of_mem_places hmem)
        simp
      · exact cons_zero_lt_nextPlace (ne_nil_of_mem_places hmem)
    · exact rest.imp_of_mem fun hmem hmem' h => nextPlace_lt (ne_nil_of_mem_places hmem) (ne_nil_of_mem_places hmem') h
    · simp only [List.mem_map]
      rintro _ ⟨inside, -, rfl⟩ _ ⟨behind, hmem, rfl⟩
      exact cons_zero_lt_nextPlace (ne_nil_of_mem_places hmem)

end

/-! ### Lines -/

/-- For each token on the way to a place, from the outermost to the one at the place, whether another one follows it on
    its level. -/
def followed : List Token → List Nat → List Bool
  | _, [] => []
  | tokens, i :: place => decide (i + 1 < tokens.length) :: followed (tokens[i]?.elim [] children) place

/-- The start of a line: a cell for each token around the one that it stands for, which has a line in it if that is
    followed by another one, and then the connector, which is bent at the last token of a level. -/
def margin : List Bool → List Char
  | [] => []
  | [more] => (if more then "├─" else "└─").toList
  | more :: next :: rest => (if more then "│ " else "  ").toList ++ margin (next :: rest)

/-- What the line of a token shows behind its margin. -/
def caption (t : Token) : List Char :=
  ' ' :: (title t.aliasName t.name).toList ++ ' ' :: (Text.quoted (String.ofList (shorten labelWidth t.chars))).toList

/-- The line at a place. -/
def lineAt (tokens : List Token) (p : List Nat × Token) : List Char := margin (followed tokens p.1) ++ caption p.2

section
variable {t u : Token} {ts us : List Token} {place : List Nat} {start : List Char}

theorem drawnOf_cons : drawnOf start (t :: ts) = start ++ (connector ts.isEmpty ++ caption t) ++ ['\n'] ++
    drawnOf (start ++ indent ts.isEmpty) t.children ++ drawnOf start ts := by
  obtain ⟨name, aliasName, content, span⟩ := t
  cases content <;> simp [drawnOf, drawn, contentDrawn, caption, children, chars]

theorem length_followed : (followed ts place).length = place.length := by
  induction place generalizing ts with
  | nil => rfl
  | cons i place ih => simp [followed, ih]

theorem followed_first : followed (t :: ts) (0 :: place) = (!ts.isEmpty) :: followed t.children place := by
  cases ts <;> simp [followed]

theorem followed_nextPlace : followed (t :: ts) (nextPlace place) = followed ts place := by
  cases place <;> simp [followed, nextPlace]

theorem margin_cons {flags : List Bool} {last : Bool} (h : flags ≠ []) :
    margin ((!last) :: flags) = indent last ++ margin flags := by
  obtain ⟨more, flags, rfl⟩ := List.exists_cons_of_ne_nil h
  cases last <;> rfl

/-- The drawing has a line for each token. -/
theorem drawnOf_eq : drawnOf start ts = (preorder ts).flatMap fun p => start ++ lineAt ts p ++ ['\n'] := by
  induction ts using forest_induction generalizing start with
  | nil => rfl
  | cons t ts inner rest =>
    have hfirst : lineAt (t :: ts) ([0], t) = connector ts.isEmpty ++ caption t := by
      cases ts <;> rfl
    have hinside : ∀ p ∈ preorder t.children, start ++ indent ts.isEmpty ++ lineAt t.children p ++ ['\n'] =
        start ++ lineAt (t :: ts) (Prod.map (0 :: ·) id p) ++ ['\n'] := by
      intro p hp
      have hflags : followed t.children p.1 ≠ [] := by
        rw [← List.length_pos_iff, length_followed, List.length_pos_iff]
        exact ne_nil_of_mem_preorder hp
      simp [lineAt, followed_first, margin_cons hflags]
    have hbehind : ∀ p ∈ preorder ts, start ++ lineAt ts p ++ ['\n'] =
        start ++ lineAt (t :: ts) (Prod.map nextPlace id p) ++ ['\n'] := by
      intro p _
      simp [lineAt, followed_nextPlace]
    rw [drawnOf_cons, inner, rest, preorder_cons, List.flatMap_cons, List.flatMap_append, List.flatMap_map,
      List.flatMap_map, List.flatMap_congr hinside, List.flatMap_congr hbehind, hfirst, List.append_assoc]

/-! ### One line for each token -/

theorem newline_not_mem_toDigits (n : Nat) : '\n' ∉ Nat.toDigits 16 n := by
  induction n using Nat.strongRecOn with
  | ind n ih =>
    rw [Nat.toDigits_eq_if (by decide)]
    split
    · simp
    · simp [ih (n / 16) (by omega)]

theorem newline_not_mem_quoted (text : String) : '\n' ∉ (Text.quoted text).toList := by
  have hchar : ∀ c, '\n' ∉ Text.quotedChar c := by
    intro c
    unfold Text.quotedChar
    split
    iterate 6 decide
    rename_i hnewline _ _
    split
    · simp [Text.codeEscape, Text.hexDigits, newline_not_mem_toDigits]
    · exact fun hmem => hnewline (List.mem_singleton.mp hmem).symm
  simp [Text.quoted, hchar]

/-- The names of the token have no line breaks in them. -/
def OneLine (t : Token) : Prop :=
  (∀ name ∈ t.name, '\n' ∉ name.toList) ∧ ∀ aliasName ∈ t.aliasName, '\n' ∉ aliasName.toList

instance (t : Token) : Decidable t.OneLine := by
  unfold OneLine
  infer_instance

theorem newline_not_mem_title (h : t.OneLine) : '\n' ∉ (title t.aliasName t.name).toList := by
  obtain ⟨hname, halias⟩ := h
  unfold title
  split
  case h_1 aliasName name heq heq' =>
    simp [hname name heq', halias aliasName heq]
  case h_2 name _ heq => exact hname name heq
  case h_3 => decide

theorem newline_not_mem_caption (h : t.OneLine) : '\n' ∉ caption t := by
  simp [caption, newline_not_mem_title h, newline_not_mem_quoted]

theorem newline_not_mem_margin (flags : List Bool) : '\n' ∉ margin flags := by
  induction flags with
  | nil => simp [margin]
  | cons more flags ih =>
    cases flags with
    | nil => cases more <;> decide
    | cons next flags =>
      rw [margin, List.mem_append, not_or]
      exact ⟨by cases more <;> decide, ih⟩

theorem newline_not_mem_lineAt (h : u.OneLine) : '\n' ∉ lineAt ts (place, u) := by
  simp [lineAt, newline_not_mem_margin, newline_not_mem_caption h]

/-! ### The shape -/

/-- The number of cells at the start of a line, with the connector. -/
def cells : List Char → Nat
  | '│' :: _ :: line => cells line + 1
  | ' ' :: _ :: line => cells line + 1
  | _ => 1

/-- The cells of a line are as many as the tokens on the way to its token, whatever is shown behind them. -/
theorem cells_margin {flags : List Bool} {line : List Char} (h : flags ≠ []) :
    cells (margin flags ++ line) = flags.length := by
  induction flags with
  | nil => exact absurd rfl h
  | cons more flags ih =>
    cases flags with
    | nil => cases more <;> simp [margin, cells]
    | cons next flags => cases more <;> simp [margin, cells, ih]

theorem cells_lineAt (h : place ≠ []) : cells (lineAt ts (place, u)) = place.length := by
  have hflags : followed ts place ≠ [] := by
    rw [← List.length_pos_iff, length_followed]
    exact List.length_pos_iff.mpr h
  rw [lineAt, cells_margin hflags, length_followed]

/-- How deep the tokens are, in their order. -/
def depths (tokens : List Token) : List Nat := (places tokens).map List.length

theorem depths_cons : depths (t :: ts) = 1 :: ((depths t.children).map (· + 1) ++ depths ts) := by
  have hnext : ∀ p, (nextPlace p).length = p.length := by
    rintro (_ | _) <;> rfl
  simp [depths, places_cons, Function.comp_def, hnext]

theorem depths_pos {d : Nat} (h : d ∈ depths ts) : 0 < d := by
  obtain ⟨p, hmem, rfl⟩ := List.mem_map.mp h
  exact List.length_pos_iff.mpr (ne_nil_of_mem_places hmem)

/-- The depths tell the places: what comes behind a token up to the next one on its level is inside it. -/
theorem places_of_depths (h : depths ts = depths us) : places ts = places us := by
  have hhead : ∀ ts, ∀ d ∈ (depths ts).head?, d = 1 := by
    rintro (_ | ⟨t, ts⟩)
    · simp [depths, places, preorder]
    · simp [depths_cons]
  have hdeeper : ∀ ts, ∀ d ∈ (depths ts).map (· + 1), d ≠ 1 := by
    intro ts d hmem
    obtain ⟨d, hd, rfl⟩ := List.mem_map.mp hmem
    have := depths_pos hd
    omega
  induction ts using forest_induction generalizing us with
  | nil =>
    cases us with
    | nil => rfl
    | cons u us =>
      rw [depths_cons] at h
      cases h
  | cons t ts inner rest =>
    cases us with
    | nil =>
      rw [depths_cons] at h
      cases h
    | cons u us =>
      rw [depths_cons, depths_cons] at h
      obtain ⟨hinside, hbehind⟩ :=
        append_unique (hdeeper t.children) (hdeeper u.children) (hhead ts) (hhead us) (List.cons.inj h).2
      rw [places_cons, places_cons, inner (List.map_injective_iff.mpr (fun _ _ => Nat.succ.inj) hinside), rest hbehind]

theorem renderTree_eq : (renderTree ts).toList = (preorder ts).flatMap fun p => lineAt ts p ++ ['\n'] := by
  simp [renderTree, drawnOf_eq]

theorem depths_eq_cells : depths ts = ((preorder ts).map (lineAt ts)).map cells := by
  rw [depths, places, List.map_map, List.map_map]
  exact List.map_congr_left fun p hp => (cells_lineAt (ne_nil_of_mem_preorder hp)).symm

/-- The drawing has one line for each token, in the order of their places: the margin shows for the token and each one
    around it whether another one follows it, and no line breaks off before its end. Two lists of tokens with the same
    drawing have tokens at the same places. -/
theorem renderTree_shows {ts : List Token} (h : ∀ p ∈ preorder ts, p.2.OneLine) :
    (renderTree ts).toList = ((preorder ts).flatMap fun p => lineAt ts p ++ ['\n']) ∧
      (∀ p ∈ preorder ts, '\n' ∉ lineAt ts p) ∧
      (∀ place t, (place, t) ∈ preorder ts ↔ at? ts place = some t) ∧
      (places ts).Pairwise (· < ·) ∧
      ∀ us, (∀ p ∈ preorder us, p.2.OneLine) → renderTree us = renderTree ts → places us = places ts := by
  refine ⟨renderTree_eq, fun p hp => newline_not_mem_lineAt (h p hp), fun _ _ => mem_preorder, places_sorted, ?_⟩
  intro us hus heq
  have hlines : (preorder us).map (lineAt us) = (preorder ts).map (lineAt ts) := by
    refine lines_unique (d := '\n') ?_ ?_ ?_
    · exact List.forall_mem_map.mpr fun p hp => newline_not_mem_lineAt (hus p hp)
    · exact List.forall_mem_map.mpr fun p hp => newline_not_mem_lineAt (h p hp)
    · rw [List.flatMap_map, List.flatMap_map, ← renderTree_eq, ← renderTree_eq, heq]
  apply places_of_depths
  rw [depths_eq_cells, depths_eq_cells, hlines]

end

/-- Tokens with the same drawing, though a text is cut in it and the spans are not shown. -/
def longSample : List Token :=
  [⟨some "string", none, .nested [⟨some "environment", some "constant", .text "$USER", ⟨0, 5⟩⟩, .plain "\n  " ⟨5, 8⟩],
      ⟨0, 8⟩⟩,
    .plain "012345678901234567890123456789+" ⟨8, 39⟩]

def longerSample : List Token :=
  [⟨some "string", none, .nested [⟨some "environment", some "constant", .text "$USER", ⟨1, 6⟩⟩, .plain "\n  " ⟨6, 9⟩],
      ⟨1, 9⟩⟩,
    .plain "012345678901234567890123456789-\n" ⟨9, 41⟩]

theorem renderTree_shows_cut :
    longSample ≠ longerSample ∧
      renderTree longSample = "├─ string \"$USER\\n  \"\n" ++ "│ ├─ constant (environment) \"$USER\"\n" ++
        "│ └─ text \"\\n  \"\n" ++ "└─ text \"012345678901234567890123456789...\"\n" ∧
      renderTree longerSample = renderTree longSample ∧
      (∀ place t, (place, t) ∈ preorder longSample ↔ at? longSample place = some t) ∧
      places longerSample = places longSample ∧ places longSample = [[0], [0, 0], [0, 1], [1]] := by
  have hlong : ∀ p ∈ preorder longSample, p.2.OneLine := by decide
  have hlonger : ∀ p ∈ preorder longerSample, p.2.OneLine := by decide
  have hsame : renderTree longerSample = renderTree longSample := by decide +kernel
  obtain ⟨-, -, hat, -, hshape⟩ := renderTree_shows hlong
  exact ⟨by decide, by decide +kernel, hsame, hat, hshape longerSample hlonger hsame, by decide⟩

end Highlight.Token
