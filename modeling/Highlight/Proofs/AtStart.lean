import Highlight.Proofs.Regex.Tied
import Highlight.Proofs.Regex.Wrapped

/-! The form of a pattern that is tied to the start against the pattern as written. The texts of both are put together
    from the source, and read and prepared apart; but they match alike at the start of a text, as long as verbose mode
    is as the flags have set it where the source ends. -/

namespace Highlight.Pattern

open Regex

/-- Whether verbose mode is on where the source ends. -/
def endsVerbose (p : Pattern) : Bool := Parser.endsVerbose (searchText p.flags.toList p.source.toList)

section
variable {source flags : String} {failures : Nat} {p : Pattern}

theorem isMode_of_modes? {flags modes : List Char} (h : modes? flags = .ok modes) :
    ∀ mode ∈ modes, isMode mode = true := by
  have hnone : ∀ mode ∈ ([] : List Char), isMode mode = true := nofun
  refine foldlM_keeps (P := fun modes => ∀ mode ∈ modes, isMode mode = true)
    (fun modes flag modes' hmodes h => ?_) hnone h
  split at h
  · rename_i hmode
    cases h
    split
    · exact hmodes
    · exact List.forall_mem_append.mpr ⟨hmodes, List.forall_mem_singleton.mpr hmode⟩
  · split at h
    · cases h
      exact hmodes
    · cases h

/-- Both forms of a pattern are compiled from its source, behind modes. -/
theorem compile_inv (h : compile source flags failures = .ok p) :
    (∀ mode ∈ p.flags.toList, isMode mode = true) ∧
      Program.compile (searchText p.flags.toList p.source.toList) = .ok p.program ∧
      Program.compile (anchoredText p.flags.toList p.source.toList) = .ok p.anchored := by
  obtain ⟨modes, hmodes, h⟩ := bind_eq_ok h
  obtain ⟨program, hprogram, h⟩ := bind_eq_ok h
  obtain ⟨anchored, hanchored, h⟩ := bind_eq_ok h
  cases h
  rw [String.toList_ofList]
  exact ⟨isMode_of_modes? hmodes, mapError_eq_ok hprogram, mapError_eq_ok hanchored⟩

/-- The program tied to the start does at the start what the program as written does. -/
theorem tied_of_compile (h : compile source flags failures = .ok p)
    (hverbose : 'x' ∈ p.flags.toList → p.endsVerbose = true) : p.program.Numbered ∧ p.program.Tied p.anchored := by
  obtain ⟨hmodes, hprogram, hanchored⟩ := compile_inv h
  obtain ⟨parsed, hparsed, hprogram⟩ := bind_eq_ok hprogram
  obtain ⟨parsed', hparsed', hanchored⟩ := bind_eq_ok hanchored
  obtain ⟨hnumbered, rfl⟩ := Parser.parse_anchoredText hmodes (fun hx => hverbose (by simpa using hx)) hparsed hparsed'
  exact ⟨Program.numbered_ofParsed hnumbered hprogram, Program.tied_ofParsed hprogram hanchored⟩

/-- The match at the start of a text is the one that a search finds. There is one just when a search finds a match at
    offset zero, if the pattern does not move the start of its matches. -/
theorem atStart_agrees (h : compile source flags failures = .ok p)
    (hverbose : 'x' ∈ p.flags.toList → p.endsVerbose = true)
    {text : List Char} {found found' : Option Match} (hfound : p.search text 0 = .ok found)
    (hfound' : p.atStart text = .ok found') :
    (∀ m, found' = some m → found = some m) ∧
      (p.program.movesStart = false → ∀ m, found' = some m ↔ found = some m ∧ m.span.start = 0) := by
  obtain ⟨hnumbered, htied⟩ := tied_of_compile h hverbose
  exact htied.search hnumbered hfound hfound'

end

/-- In verbose mode a comment may end the source. -/
theorem atStart_agrees_comment : ∃ p, compile "(a)(?=b) # a group" "x" defaultFailures = .ok p ∧
    ('x' ∈ p.flags.toList → p.endsVerbose = true) ∧ p.program.movesStart = false ∧
    p.search ['a', 'b'] 0 = .ok (some ⟨⟨0, 1⟩, [some ⟨0, 1⟩]⟩) ∧
    p.atStart ['a', 'b'] = .ok (some ⟨⟨0, 1⟩, [some ⟨0, 1⟩]⟩) ∧
    ∀ m : Match, some ⟨⟨0, 1⟩, [some ⟨0, 1⟩]⟩ = some m ↔ some ⟨⟨0, 1⟩, [some ⟨0, 1⟩]⟩ = some m ∧ m.span.start = 0 := by
  have hrun : (compile "(a)(?=b) # a group" "x" defaultFailures).toOption.map (fun p =>
      (p.endsVerbose, p.program.movesStart, (p.search ['a', 'b'] 0).toOption, (p.atStart ['a', 'b']).toOption)) =
      some (true, false, some (some ⟨⟨0, 1⟩, [some ⟨0, 1⟩]⟩), some (some ⟨⟨0, 1⟩, [some ⟨0, 1⟩]⟩)) := by decide +kernel
  obtain ⟨p, hp, hrun⟩ := Option.map_eq_some_iff.mp hrun
  simp only [Prod.mk.injEq] at hrun
  obtain ⟨hverbose, hmoves, hsearch, hstart⟩ := hrun
  have hcompiled := toOption_eq_some hp
  have hfound := toOption_eq_some hsearch
  have hfound' := toOption_eq_some hstart
  exact ⟨p, hcompiled, fun _ => hverbose, hmoves, hfound, hfound',
    (atStart_agrees hcompiled (fun _ => hverbose) hfound hfound').2 hmoves⟩

/-- Where the source switches verbose mode off, the line end in front of the closing parenthesis is part of the pattern:
    a match that begins with the text is not found at its start. -/
theorem atStart_disagrees : ∃ p, compile "(?-x)a" "x" defaultFailures = .ok p ∧
    p.search ['a'] 0 = .ok (some ⟨⟨0, 1⟩, []⟩) ∧ p.atStart ['a'] = .ok none := by
  have hrun : (compile "(?-x)a" "x" defaultFailures).toOption.map (fun p =>
      ((p.search ['a'] 0).toOption, (p.atStart ['a']).toOption)) =
      some (some (some ⟨⟨0, 1⟩, []⟩), some none) := by decide +kernel
  obtain ⟨p, hp, hrun⟩ := Option.map_eq_some_iff.mp hrun
  obtain ⟨hsearch, hstart⟩ := Prod.mk.inj hrun
  exact ⟨p, toOption_eq_some hp, toOption_eq_some hsearch, toOption_eq_some hstart⟩

/-- A pattern that moves the start of its matches matches at the start of a text, though the match begins later. -/
example : (compile "a\\Kb" "" defaultFailures).toOption.map (fun p => (p.atStart ['a', 'b']).toOption) =
    some (some (some ⟨⟨1, 2⟩, []⟩)) := by
  decide +kernel

end Highlight.Pattern
