import Highlight.Definition
import Highlight.Proofs.AtStart
import Highlight.Proofs.Regex.Enclosed

/-! Which patterns compile. A pattern is read twice, as written and in a group that ties it to the start. The second
    reading is no reason to refuse a pattern, as long as the source can stand in a group (`StandsInGroup`). -/

namespace Highlight

namespace Regex.Program

/-- An expression that can be prepared can also be prepared behind the check for the start. -/
theorem exists_ofParsed_anchored {e : Expr} {groups : Nat} {refs : List Nat} {program : Program}
    (h : ofParsed ⟨e, groups, refs⟩ = .ok program) :
    ∃ anchored, ofParsed ⟨.ofParts (.assertion .textStart :: if e.isEmpty then [] else [e]), groups, refs⟩ =
      .ok anchored := by
  cases hempty : e.isEmpty with
  | true => exact ⟨_, rfl⟩
  | false =>
    show ∃ anchored, ofParsed ⟨.concat [.assertion .textStart, e], groups, refs⟩ = .ok anchored
    rcases ofParsed_cases h with ⟨hhard, t, slots, hrun, -⟩ | ⟨hhard, t, hbuild, -⟩
    · dsimp only at hrun
      rw [ofParsed, if_pos ((hard_anchored refs e).trans hhard), ofExpr_anchored hhard]
      dsimp only
      rw [run_bind_of_ok hrun]
      exact ⟨_, rfl⟩
    · rw [ofParsed, if_neg (by rw [hard_anchored, hhard]; exact Bool.false_ne_true), build_anchored hbuild]
      exact ⟨_, rfl⟩

end Regex.Program

namespace Pattern

open Regex

/-- The engine accepts a source with modes on. -/
def Accepts (modes source : List Char) : Prop := ∃ program, Program.compile (searchText modes source) = .ok program

/-- The source can be put in the group that ties it to the start, with the line end that comes before the closing
    parenthesis if verbose mode is among the modes. Where the source switches that mode off, so that the line end is
    part of the pattern, the engine has to accept the source with it. -/
inductive StandsInGroup (modes source : List Char) : Prop
  | asWritten : Parser.Enclosable modes source (modes.contains 'x') → StandsInGroup modes source
  | withLineEnd : modes.contains 'x' = true → Accepts modes (source ++ ['\n']) →
      Parser.Enclosable modes (source ++ ['\n']) false → StandsInGroup modes source

section
variable {modes source : List Char} (hmodes : ∀ mode ∈ modes, isMode mode = true)
include hmodes

theorem compile_enclosed {lineEnd : Bool} (haccepts : Accepts modes source)
    (henclosable : Parser.Enclosable modes source lineEnd) :
    ∃ anchored, Program.compile (Parser.enclosed modes source lineEnd) = .ok anchored := by
  obtain ⟨program, hprogram⟩ := haccepts
  obtain ⟨parsed, hparsed, hprogram⟩ := bind_eq_ok hprogram
  obtain ⟨anchored, hanchored⟩ := Program.exists_ofParsed_anchored hprogram
  exact ⟨anchored, bind_eq_ok_iff.mpr ⟨_, Parser.parse_enclosed hmodes hparsed henclosable, hanchored⟩⟩

/-- The form that is tied to the start is accepted with the source. -/
theorem compile_anchoredText (haccepts : Accepts modes source) (hgroup : StandsInGroup modes source) :
    ∃ anchored, Program.compile (anchoredText modes source) = .ok anchored := by
  cases hgroup with
  | asWritten henclosable =>
    have htext : anchoredText modes source = Parser.enclosed modes source (modes.contains 'x') := by
      simp [anchoredText, Parser.enclosed, closing]
    exact htext ▸ compile_enclosed hmodes haccepts henclosable
  | withLineEnd hx haccepts' henclosable =>
    have htext : anchoredText modes source = Parser.enclosed modes (source ++ ['\n']) false := by
      rw [anchoredText, hx]
      simp [Parser.enclosed, closing]
    exact htext ▸ compile_enclosed hmodes haccepts' henclosable

end

/-! ### Flags -/

/-- The flags that a pattern may have. -/
def allowedFlags : List Char := ['i', 'm', 's', 'x', 'g', 'u', 'y']

theorem mem_allowedFlags {flag : Char} : flag ∈ allowedFlags ↔ isMode flag = true ∨ isIgnored flag = true := by
  simp [allowedFlags, isMode, isIgnored, or_assoc]

/-- The modes among flags are found exactly if all flags are allowed. -/
theorem exists_modes?_iff {flags : List Char} :
    (∃ modes, modes? flags = .ok modes) ↔ ∀ flag ∈ flags, flag ∈ allowedFlags := by
  refine exists_foldlM_iff fun modes flag => ?_
  rw [mem_allowedFlags]
  cases isMode flag <;> cases isIgnored flag <;> simp

/-! ### Patterns -/

section
variable {source flags : String} {failures : Nat}

theorem compile_eq_ok {p : Pattern} (h : compile source flags failures = .ok p) :
    ∃ modes, modes? flags.toList = .ok modes ∧ Accepts modes source.toList := by
  obtain ⟨modes, hmodes, h⟩ := bind_eq_ok h
  obtain ⟨program, hprogram, -⟩ := bind_eq_ok h
  exact ⟨modes, hmodes, program, mapError_eq_ok hprogram⟩

theorem exists_compile {modes : List Char} (hmodes : modes? flags.toList = .ok modes)
    (haccepts : Accepts modes source.toList) (hgroup : StandsInGroup modes source.toList) :
    ∃ p, compile source flags failures = .ok p := by
  obtain ⟨program, hprogram⟩ := haccepts
  obtain ⟨anchored, hanchored⟩ := compile_anchoredText (isMode_of_modes? hmodes) ⟨program, hprogram⟩ hgroup
  exact ⟨_, bind_eq_ok_iff.mpr ⟨modes, hmodes, bind_eq_ok_iff.mpr ⟨program, mapError_eq_ok_iff.mpr hprogram,
    bind_eq_ok_iff.mpr ⟨anchored, mapError_eq_ok_iff.mpr hanchored, rfl⟩⟩⟩⟩

end

end Pattern

namespace Definition

open Pattern Regex

/-- A pattern is refused only for what its author wrote. It compiles only if all flags are allowed and the engine accepts
    the source with their modes on; these suffice if the source can stand in a group. An error always names the source
    as it is written. -/
theorem compilePattern_accepts (failures : Nat) (source flags : String) :
    (∀ p, compilePattern failures source flags = .ok p → (∀ flag ∈ flags.toList, flag ∈ allowedFlags) ∧
      ∃ modes, modes? flags.toList = .ok modes ∧ Accepts modes source.toList) ∧
    ((∀ modes, modes? flags.toList = .ok modes → StandsInGroup modes source.toList) →
      ((∃ p, compilePattern failures source flags = .ok p) ↔ (∀ flag ∈ flags.toList, flag ∈ allowedFlags) ∧
        ∃ modes, modes? flags.toList = .ok modes ∧ Accepts modes source.toList)) ∧
    ∀ e, compilePattern failures source flags = .error e → ∃ cause, e = .malformedPattern source cause := by
  have hnecessary : ∀ p, compilePattern failures source flags = .ok p → (∀ flag ∈ flags.toList, flag ∈ allowedFlags) ∧
      ∃ modes, modes? flags.toList = .ok modes ∧ Accepts modes source.toList := by
    intro p hp
    obtain ⟨modes, hmodes, haccepts⟩ := compile_eq_ok (mapError_eq_ok hp)
    exact ⟨exists_modes?_iff.mp ⟨modes, hmodes⟩, modes, hmodes, haccepts⟩
  refine ⟨hnecessary, fun hgroup => ⟨fun ⟨p, hp⟩ => hnecessary p hp, ?_⟩, fun e he => ?_⟩
  · rintro ⟨-, modes, hmodes, haccepts⟩
    obtain ⟨p, hp⟩ := exists_compile hmodes haccepts (hgroup modes hmodes)
    exact ⟨p, mapError_eq_ok_iff.mpr hp⟩
  · rw [← errorOf_eq_some, compilePattern, errorOf_mapError, Option.map_eq_some_iff] at he
    obtain ⟨cause, -, rfl⟩ := he
    exact ⟨cause, rfl⟩

theorem accepts_of_isSome {modes source : List Char}
    (h : (Program.compile (searchText modes source)).toOption.isSome = true) : Accepts modes source :=
  ⟨_, eq_ok_of_isSome h default⟩

/-- In verbose mode the line end spares the closing parenthesis from a comment at the end of the source. -/
theorem compilePattern_accepts_comment :
    (∀ modes, modes? "x".toList = .ok modes → StandsInGroup modes "a # c".toList) ∧
      (∀ flag ∈ "x".toList, flag ∈ allowedFlags) ∧ Accepts ['x'] "a # c".toList ∧
      ∃ p, compilePattern defaultFailures "a # c" "x" = .ok p := by
  have hshallow : Parser.isShallow (searchText ['x'] "a # c".toList) = true := by decide +kernel
  have hmixed : Parser.mixesReferences (searchText ['x'] "a # c".toList) = false := by decide +kernel
  have hverbose : Parser.endsVerbose (searchText ['x'] "a # c".toList) = true := by decide +kernel
  have hgroup : ∀ modes, modes? "x".toList = .ok modes → StandsInGroup modes "a # c".toList := by
    intro modes hmodes
    obtain rfl : ['x'] = modes := Except.ok.inj hmodes
    exact .asWritten ⟨hshallow, hmixed, fun _ => hverbose, nofun⟩
  have hflags : ∀ flag ∈ "x".toList, flag ∈ allowedFlags := by simp [allowedFlags]
  have haccepts : Accepts ['x'] "a # c".toList := accepts_of_isSome (by decide +kernel)
  obtain ⟨-, hiff, -⟩ := compilePattern_accepts defaultFailures "a # c" "x"
  exact ⟨hgroup, hflags, haccepts, (hiff hgroup).mpr ⟨hflags, ['x'], rfl, haccepts⟩⟩

/-- Where the source itself switches verbose mode on, there is no line end, and a comment at its end takes the closing
    parenthesis in. -/
theorem compilePattern_refuses :
    (∀ flag ∈ "".toList, flag ∈ allowedFlags) ∧ modes? "".toList = .ok [] ∧ Accepts [] "(?x)a # c".toList ∧
      compilePattern defaultFailures "(?x)a # c" "" =
        .error (.malformedPattern "(?x)a # c" (.malformed .unclosedGroup)) := by
  have hflags : ∀ flag ∈ "".toList, flag ∈ allowedFlags := nofun
  refine ⟨hflags, rfl, accepts_of_isSome (by decide +kernel), ?_⟩
  rw [← errorOf_eq_some]
  decide +kernel

/-- References by number beside named groups are allowed among branches, but not in a group. -/
example : Accepts [] "(?<n>a)\\1|b".toList ∧ errorOf (compilePattern defaultFailures "(?<n>a)\\1|b" "") =
    some (.malformedPattern "(?<n>a)\\1|b" (.malformed .mixedBackrefs)) :=
  ⟨accepts_of_isSome (by decide +kernel), by decide +kernel⟩

/-- Groups that nest as deep as they may cannot stand in another one. -/
example : let source := String.ofList (List.replicate 63 '(' ++ List.replicate 63 ')')
    Accepts [] source.toList ∧ errorOf (compilePattern defaultFailures source "") =
      some (.malformedPattern source (.malformed .tooDeep)) :=
  ⟨accepts_of_isSome (by decide +kernel), by decide +kernel⟩

end Definition

end Highlight
