import T81VM.ProgramIo.TextGrammar

/-!
# Text V1

The layouts of a program as lines of text, and that each of them loads as the
program.
-/

namespace T81VM.ProgramIo

open Tisc

/-- What a line is for: nothing, the policy, or one instruction. -/
inductive Item where
  | filler
  | policy
  | insn (spelled : Spelled)

def Item.isFiller : Item → Bool
  | .filler => true
  | .policy | .insn _ => false

/-- The lines of each item, indented and ended by any spaces; a carriage
return is one of them. -/
inductive RendersLine (policy : Text) : Item → Text → Prop where
  | blank {line : Text} (spaces : Blank line) :
      RendersLine policy .filler line
  | comment {indent words : Text} (left : Blank indent) :
      RendersLine policy .filler (indent ++ (text "#" ++ words))
  | policy {indent gap ending : Text} (left : Blank indent)
      (between : Blank gap) (separated : gap ≠ [] ∨ policy = [])
      (right : Blank ending) :
      RendersLine policy .policy
        (indent ++ (text "POLICY" ++ (gap ++ (policy ++ ending))))
  | insn {spelled : Spelled} {indent gapA gapB gapC ending : Text}
      (left : Blank indent) (beforeA : Blank gapA) (separatedA : gapA ≠ [])
      (beforeB : Blank gapB) (separatedB : gapB ≠ [])
      (beforeC : Blank gapC) (separatedC : gapC ≠ [])
      (right : Blank ending) :
      RendersLine policy (.insn spelled)
        (indent ++ (spelled.name ++ (gapA ++ (number spelled.insn.a
          ++ (gapB ++ (number spelled.insn.b
            ++ (gapC ++ (number spelled.insn.c ++ ending))))))))

def OneLine (line : Text) : Prop :=
  ∀ byte ∈ line, isByte '\n' byte = false

instance (line : Text) : Decidable (OneLine line) :=
  inferInstanceAs (Decidable (∀ byte ∈ line, isByte '\n' byte = false))

/-- Lines, each ended by a newline; the last one need not be. -/
inductive Joined : List Text → Text → Prop where
  | none : Joined [] []
  | unterminated {line : Text} (oneLine : OneLine line)
      (nonempty : line ≠ []) : Joined [line] line
  | terminated {line rest : Text} {lines : List Text}
      (oneLine : OneLine line) (later : Joined lines rest) :
      Joined (line :: lines) (line ++ (text "\n" ++ rest))

/-- The text renders the program: an optional policy line, then a line for
each instruction, with fillers anywhere. -/
def RendersTextV1 (program : Program) (input : Text) : Prop :=
  ∃ (spelled : List Spelled) (items : List Item) (lines : List Text),
    spelled.map Spelled.insn = program.insns ∧
    (items.filter (fun item => !item.isFiller) =
        .policy :: spelled.map .insn ∨
      program.axionPolicyText = [] ∧
        items.filter (fun item => !item.isFiller) = spelled.map .insn) ∧
    List.Forall₂ (RendersLine program.axionPolicyText) items lines ∧
    Joined lines input

/-! ## Lines -/

theorem getlines_terminated {line rest : Text} (oneLine : OneLine line) :
    getlines (line ++ (text "\n" ++ rest)) = line :: getlines rest := by
  induction line with
  | nil => rfl
  | cons byte bytes induction =>
      have visible := oneLine byte List.mem_cons_self
      have later := induction fun other member =>
        oneLine other (List.mem_cons_of_mem byte member)
      rw [List.cons_append, getlines, visible, later]
      rfl

theorem getlines_unterminated {line : Text} (oneLine : OneLine line)
    (nonempty : line ≠ []) : getlines line = [line] := by
  induction line with
  | nil => exact absurd rfl nonempty
  | cons byte bytes induction =>
      have visible := oneLine byte List.mem_cons_self
      rw [getlines, visible]
      cases bytes with
      | nil => rfl
      | cons next others =>
          have later := induction
            (fun other member =>
              oneLine other (List.mem_cons_of_mem byte member))
            (List.cons_ne_nil next others)
          rw [later]
          rfl

/-- The loader reads the lines that were joined. -/
theorem Joined.getlines {lines : List Text} {input : Text}
    (joined : Joined lines input) : getlines input = lines := by
  induction joined with
  | none => rfl
  | unterminated oneLine nonempty =>
      exact getlines_unterminated oneLine nonempty
  | terminated oneLine later induction =>
      rw [getlines_terminated oneLine, induction]

/-- What a line of each item does. -/
def applyItem (policy : Text) (out : ProgramLoadResult) :
    Item → Except StdException ProgramLoadResult
  | .filler => .ok out
  | .policy =>
      .ok { out with program := { out.program with
        axionPolicyText := policy } }
  | .insn spelled => do
      let program ← pushInsn out.program spelled.insn
      return { out with program }

variable {policy line : Text} {out : ProgramLoadResult} {item : Item}
  {items : List Item} {lines : List Text}

/-- A trimmed line that starts with some word which is no comment. -/
theorem loadLine_of_word {op rest : Text} (trimmed : trim line = op ++ rest)
    (nonempty : op ≠ []) (visible : ∀ byte ∈ op, isSpace byte = false)
    (stops : ∀ byte ∈ rest.head?, isSpace byte = true)
    (noComment : ∀ byte ∈ op.head?, isByte '#' byte = false) :
    loadLine out line = loadStatement out op rest := by
  have word := extractWord_append nonempty visible stops
  obtain ⟨first, others, rfl⟩ := List.exists_cons_of_ne_nil nonempty
  have statement := noComment first rfl
  rw [List.cons_append] at word
  rw [loadLine, trimmed]
  simp only [List.cons_append, statement, Bool.false_eq_true, if_false]
  rw [word]

theorem policy_head :
    ∀ byte ∈ (text "POLICY").head?, isByte '#' byte = false := by
  intro byte first
  have head : (text "POLICY").head? = some 80 := rfl
  rw [head, Option.mem_some_iff] at first
  rw [← first]
  rfl

theorem loadLine_policy {indent gap ending : Text} (plain : PlainPolicy policy)
    (left : Blank indent) (between : Blank gap)
    (separated : gap ≠ [] ∨ policy = []) (right : Blank ending)
    (oneLine : OneLine gap) :
    loadLine out (indent ++ (text "POLICY" ++ (gap ++ (policy ++ ending)))) =
      .ok ({ out with program := { out.program with
        axionPolicyText := policy } }, true) := by
  by_cases empty : policy = []
  · subst empty
    have trimmed : trim (indent
        ++ (text "POLICY" ++ (gap ++ ([] ++ ending)))) =
        text "POLICY" ++ [] := by
      rw [List.nil_append, trim_pad left (between.append right)]
      rfl
    rw [loadLine_of_word trimmed (by decide) (by decide) (by simp) policy_head]
    rfl
  · have spaced : gap ≠ [] := separated.resolve_right empty
    have trimmed : trim (indent
        ++ (text "POLICY" ++ (gap ++ (policy ++ ending)))) =
        text "POLICY" ++ (gap ++ policy) := by
      have regroup : text "POLICY" ++ (gap ++ (policy ++ ending)) =
          (text "POLICY" ++ (gap ++ policy)) ++ ending := by simp
      rw [regroup, trim_pad left right]
      apply trim_eq_self
      · intro byte head
        cases head
        rfl
      · rw [List.getLast?_append_of_ne_nil _ (by simp [empty]),
          List.getLast?_append_of_ne_nil _ empty]
        exact last_of_trim plain.trimmed
    have noNewline : ∀ byte ∈ gap ++ policy, (!isByte '\n' byte) = true := by
      intro byte member
      rcases List.mem_append.mp member with inGap | inPolicy
      · rw [oneLine byte inGap]
        rfl
      · have visible := (plain.plain byte inPolicy).1
        rw [Bool.not_eq_true', isByte, beq_eq_false_iff_ne]
        rintro rfl
        exact absurd visible (by decide)
    have value : trim (gap ++ policy) = policy := by
      have padded := @trim_pad gap policy [] between (by simp [Blank])
      rw [List.append_nil] at padded
      rw [padded, plain.trimmed]
    rw [loadLine_of_word trimmed (by decide) (by decide)
      (between.head spaced) policy_head, loadStatement, if_pos rfl,
      List.takeWhile_eq_self_iff.mpr noNewline, value]

/-- A rendered operand is one of the grammar. -/
theorem operand_number {gap : Text} (value : Int64) (spaces : Blank gap)
    (separated : gap ≠ []) : Operand (gap ++ number value) value := by
  have digits := Decimal.natural_isDigit value.toInt.natAbs
  have written := Decimal.natural_ne_nil value.toInt.natAbs
  rw [number_eq]
  apply Operand.mk spaces separated
  by_cases negative : value.toInt < 0
  · rw [if_pos negative]
    apply Numeral.mk .minus written digits
    rw [if_pos rfl, Decimal.value_natural]
    omega
  · rw [if_neg negative]
    apply Numeral.mk .plain written digits
    rw [if_neg (by decide), Decimal.value_natural]
    omega

theorem loadLine_insn {spelled : Spelled}
    {indent gapA gapB gapC ending : Text} (left : Blank indent)
    (beforeA : Blank gapA) (separatedA : gapA ≠ [])
    (beforeB : Blank gapB) (separatedB : gapB ≠ [])
    (beforeC : Blank gapC) (separatedC : gapC ≠ []) (right : Blank ending) :
    loadLine out (indent ++ (spelled.name ++ (gapA ++ (number spelled.insn.a
      ++ (gapB ++ (number spelled.insn.b
        ++ (gapC ++ (number spelled.insn.c ++ ending)))))))) = do
      let program ← pushInsn out.program spelled.insn
      return ({ out with program }, true) := by
  have renders := InsnLine.mk left spelled.spells
    (operand_number _ beforeA separatedA)
    (operand_number _ beforeB separatedB)
    (operand_number _ beforeC separatedC) right
  simp only [List.append_assoc] at renders
  rw [loadLine_statement renders.isStatement, renders.readInsn]

/-- A rendered line does what its item does. -/
theorem loadLine_rendered (plain : PlainPolicy policy)
    (renders : RendersLine policy item line) (oneLine : OneLine line) :
    loadLine out line = do
      let out ← applyItem policy out item
      return (out, true) := by
  cases renders with
  | blank spaces =>
      rw [loadLine, trim_blank spaces]
      rfl
  | @comment indent words left =>
      obtain ⟨others, trimmed⟩ : ∃ others, trim (indent
          ++ (text "#" ++ words)) = 35 :: others := trim_visible left rfl
      rw [loadLine, trimmed]
      rfl
  | policy left between separated right =>
      have inside : OneLine _ := fun byte member => oneLine byte
        (List.mem_append_right _ (List.mem_append_right _
          (List.mem_append_left _ member)))
      rw [loadLine_policy plain left between separated right inside]
      rfl
  | insn left beforeA separatedA beforeB separatedB beforeC separatedC
      right =>
      rw [loadLine_insn left beforeA separatedA beforeB separatedB beforeC
        separatedC right, applyItem, bind_assoc]
      rfl

/-- Rendered lines do what their items do, one after the other. -/
theorem loadLines_rendered (plain : PlainPolicy policy)
    (renders : List.Forall₂ (RendersLine policy) items lines)
    (oneLines : ∀ line ∈ lines, OneLine line) :
    loadLines out lines = do
      let out ← items.foldlM (applyItem policy) out
      return { out with ok := true } := by
  induction renders generalizing out with
  | nil => rfl
  | cons line others induction =>
      have here : loadLine out _ = _ :=
        loadLine_rendered plain line (oneLines _ List.mem_cons_self)
      rw [loadLines_cons, here, List.foldlM_cons, bind_assoc, bind_assoc]
      congr 1
      funext next
      exact induction fun other member =>
        oneLines other (List.mem_cons_of_mem _ member)

/-- Fillers do nothing. -/
theorem foldlM_applyItem_filter :
    items.foldlM (applyItem policy) out =
      (items.filter fun item => !item.isFiller).foldlM (applyItem policy)
        out := by
  induction items generalizing out with
  | nil => rfl
  | cons item others induction =>
      cases item with
      | filler => exact induction
      | policy =>
          rw [List.filter_cons_of_pos rfl, List.foldlM_cons,
            List.foldlM_cons]
          congr 1
          funext next
          exact induction
      | insn spelled =>
          rw [List.filter_cons_of_pos rfl, List.foldlM_cons,
            List.foldlM_cons]
          congr 1
          funext next
          exact induction

/-- The instruction lines add their instructions. -/
theorem foldlM_applyItem_insns {spelled : List Spelled} {program : Program}
    (policyEq : program.axionPolicyText = out.program.axionPolicyText)
    (all : program.insns =
      out.program.insns ++ spelled.map Spelled.insn) :
    (spelled.map Item.insn).foldlM (applyItem policy) out =
      .ok { out with program } := by
  have pushed := foldlM_pushInsn policyEq all
  have folded : (spelled.map Item.insn).foldlM (applyItem policy) out = do
      let program ← (spelled.map Spelled.insn).foldlM pushInsn out.program
      return { out with program } := by
    clear policyEq all pushed
    induction spelled generalizing out with
    | nil => rfl
    | cons first others induction =>
        rw [List.map_cons, List.map_cons, List.foldlM_cons, List.foldlM_cons,
          applyItem, bind_assoc, bind_assoc]
        congr 1
        funext next
        exact induction
  rw [folded, pushed]
  rfl

theorem Joined.oneLines {input : Text} (joined : Joined lines input) :
    ∀ line ∈ lines, OneLine line := by
  induction joined with
  | none => simp
  | unterminated oneLine => simpa using oneLine
  | terminated oneLine later induction => simpa using ⟨oneLine, induction⟩

/-- Every rendering of a program as text loads as the program. -/
theorem loadTextV1_rendered {program : Program} {input : Text}
    (plain : PlainPolicy program.axionPolicyText)
    (renders : RendersTextV1 program input) :
    loadTextV1 input =
      .ok { ok := true, format := .textV1, program, error := [] } := by
  obtain ⟨spelled, items, lines, same, significant, rendered, joined⟩ :=
    renders
  rw [loadTextV1, joined.getlines,
    loadLines_rendered plain rendered joined.oneLines,
    foldlM_applyItem_filter]
  rcases significant with withPolicy | ⟨empty, withoutPolicy⟩
  · rw [withPolicy, List.foldlM_cons]
    have loaded := @foldlM_applyItem_insns program.axionPolicyText
      { format := .textV1, program := { emptyProgram with
        axionPolicyText := program.axionPolicyText } }
      spelled program rfl same.symm
    exact bind_eq_ok.mpr ⟨_, bind_eq_ok.mpr ⟨_, rfl, loaded⟩, rfl⟩
  · rw [withoutPolicy]
    have loaded := @foldlM_applyItem_insns program.axionPolicyText
      { format := .textV1 } spelled program empty same.symm
    exact bind_eq_ok.mpr ⟨_, loaded, rfl⟩

end T81VM.ProgramIo
