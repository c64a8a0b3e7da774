import Highlight.Span

/-! What a tokenizer warns of. Splitting a text never fails: whatever goes wrong is passed over, and a
    warning tells of it. -/

namespace Highlight

/-- Something that was passed over. Offsets count from the start of the text that a grammar was used on. -/
inductive Warning where
  | emptyMatch (rule pattern : String) (offset : Nat)
  | failedSearch (rule pattern : String)
  | tooDeep (rule : String) (maxDepth : Nat)
  | unresolved (language : String)
  | tooManyRests (maxDepth : Nat)
  deriving DecidableEq, Repr

namespace Warning

def message : Warning → String
  | emptyMatch .. => "Rule produced an empty match, skipping it"
  | failedSearch .. => "Pattern failed at runtime, treating it as no match"
  | tooDeep .. => "Nesting limit reached, keeping match as plain text"
  | unresolved _ => "Unresolved grammar reference, keeping match as plain text"
  | tooManyRests _ => "Too many rest grammars, ignoring the remainder"

/-- Changes the offset. -/
def mapOffset (f : Nat → Nat) : Warning → Warning
  | emptyMatch rule pattern offset => emptyMatch rule pattern (f offset)
  | w => w

end Warning

/-- A value with the warnings given on the way to it, in order. The spans that were cut from a text and do
    not lie in it are its `strays`; a cut like that has no result that means anything. Something that is
    `endless` repeats itself for ever and never comes to its value. -/
structure Logged (α : Type) where
  value : α
  warnings : List Warning
  strays : List Span
  endless : Bool

namespace Logged
variable {α β : Type}

instance : Monad Logged where
  pure a := ⟨a, [], [], false⟩
  bind x f :=
    let y := f x.value
    ⟨y.value, x.warnings ++ y.warnings, x.strays ++ y.strays, x.endless || y.endless⟩

/-- A warning on its own. -/
def warn (w : Warning) : Logged Unit := ⟨(), [w], [], false⟩

/-- What goes on for ever, with `a` in place of the value that it never comes to. -/
def forever (a : α) : Logged α := ⟨a, [], [], true⟩

/-- Reaches for a span of a text of `length` characters, the first of which has the offset `offset`. -/
def reach (offset length : Nat) (s : Span) : Logged Unit :=
  ⟨(), [], if s.liesIn ⟨offset, offset + length⟩ then [] else [s], false⟩

/-- Cuts a span from a text that starts at `offset`. -/
def cut (offset : Nat) (text : List Char) (s : Span) : Logged (List Char) := do
  reach offset text.length s
  return slice text ⟨s.start - offset, s.stop - offset⟩

/-- Changes the offsets of all warnings. -/
def mapOffsets (f : Nat → Nat) (x : Logged α) : Logged α :=
  { x with warnings := x.warnings.map (Warning.mapOffset f) }

theorem mk_bind (a : α) (ws : List Warning) (strays : List Span) (endless : Bool) (f : α → Logged β) :
    (⟨a, ws, strays, endless⟩ >>= f) =
      ⟨(f a).value, ws ++ (f a).warnings, strays ++ (f a).strays, endless || (f a).endless⟩ := rfl

@[simp] theorem pure_bind (a : α) (f : α → Logged β) : (pure a >>= f) = f a := rfl

@[simp] theorem value_pure (a : α) : (pure a : Logged α).value = a := rfl

@[simp] theorem value_bind (x : Logged α) (f : α → Logged β) : (x >>= f).value = (f x.value).value := rfl

@[simp] theorem value_map (g : α → β) (x : Logged α) : (g <$> x).value = g x.value := rfl

@[simp] theorem value_forever (a : α) : (forever a).value = a := rfl

@[simp] theorem value_warn (w : Warning) : (warn w).value = () := rfl

@[simp] theorem value_mapOffsets (f : Nat → Nat) (x : Logged α) : (x.mapOffsets f).value = x.value := rfl

@[simp] theorem warnings_pure (a : α) : (pure a : Logged α).warnings = [] := rfl

@[simp] theorem warnings_bind (x : Logged α) (f : α → Logged β) :
    (x >>= f).warnings = x.warnings ++ (f x.value).warnings := rfl

@[simp] theorem warnings_forever (a : α) : (forever a).warnings = [] := rfl

@[simp] theorem warnings_warn (w : Warning) : (warn w).warnings = [w] := rfl

@[simp] theorem warnings_mapOffsets (f : Nat → Nat) (x : Logged α) :
    (x.mapOffsets f).warnings = x.warnings.map (Warning.mapOffset f) := rfl

@[simp] theorem strays_pure (a : α) : (pure a : Logged α).strays = [] := rfl

@[simp] theorem strays_bind (x : Logged α) (f : α → Logged β) :
    (x >>= f).strays = x.strays ++ (f x.value).strays := rfl

@[simp] theorem strays_forever (a : α) : (forever a).strays = [] := rfl

@[simp] theorem strays_warn (w : Warning) : (warn w).strays = [] := rfl

@[simp] theorem strays_mapOffsets (f : Nat → Nat) (x : Logged α) : (x.mapOffsets f).strays = x.strays := rfl

@[simp] theorem endless_pure (a : α) : (pure a : Logged α).endless = false := rfl

@[simp] theorem endless_bind (x : Logged α) (f : α → Logged β) :
    (x >>= f).endless = (x.endless || (f x.value).endless) := rfl

@[simp] theorem endless_forever (a : α) : (forever a).endless = true := rfl

@[simp] theorem endless_warn (w : Warning) : (warn w).endless = false := rfl

@[simp] theorem endless_mapOffsets (f : Nat → Nat) (x : Logged α) : (x.mapOffsets f).endless = x.endless := rfl

@[simp] theorem endless_reach (offset length : Nat) (s : Span) : (reach offset length s).endless = false := rfl

@[simp] theorem endless_cut (offset : Nat) (text : List Char) (s : Span) : (cut offset text s).endless = false := rfl

@[simp] theorem value_cut (offset : Nat) (text : List Char) (s : Span) :
    (cut offset text s).value = slice text ⟨s.start - offset, s.stop - offset⟩ := rfl

@[simp] theorem warnings_reach (offset length : Nat) (s : Span) : (reach offset length s).warnings = [] := rfl

@[simp] theorem warnings_cut (offset : Nat) (text : List Char) (s : Span) : (cut offset text s).warnings = [] := rfl

theorem strays_reach {offset length : Nat} {s : Span} (h1 : offset ≤ s.start) (h2 : s.start ≤ s.stop)
    (h3 : s.stop ≤ offset + length) : (reach offset length s).strays = [] := by
  simp [reach, Span.liesIn, h1, h2, h3]

theorem strays_cut {offset : Nat} {text : List Char} {s : Span} (h1 : offset ≤ s.start) (h2 : s.start ≤ s.stop)
    (h3 : s.stop ≤ offset + text.length) : (cut offset text s).strays = [] := by
  simp [cut, strays_reach h1 h2 h3]

end Logged
end Highlight
