import T81VM.ProgramIo.TextV1
import T81VM.ProgramIo.TiscJsonV1

/-!
# The two formats agree

A program with a plain policy loads as itself from every rendering in either
format.
-/

namespace T81VM.ProgramIo

open Tisc

/-- However a program is laid out in the two formats, and however its opcodes
are spelled, loading both gives the program. -/
theorem formats_agree {program : Program} {asText asJson : Text}
    (plain : PlainPolicy program.axionPolicyText)
    (nonempty : program.insns ≠ [])
    (renderedText : RendersTextV1 program asText)
    (renderedJson : RendersTiscJsonV1 program asJson) :
    ∃ fromText fromJson : ProgramLoadResult,
      loadTextV1 asText = .ok fromText ∧
        loadTiscJsonV1 asJson = .ok fromJson ∧
        fromText.ok = true ∧ fromJson.ok = true ∧
        fromText.program = fromJson.program ∧
        fromText.program = program :=
  ⟨_, _, loadTextV1_rendered plain renderedText,
    loadTiscJsonV1_rendered plain nonempty renderedJson, rfl, rfl, rfl, rfl⟩

section Example

def spelledLoadImm : Spelled where
  name := text "load-Imm"
  insn := { opcode := .loadImm, a := 0, b := Int64.minValue, c := 0 }
  spells := by decide

def spelledJump : Spelled where
  name := text "_jmp"
  insn := { opcode := .jump, a := 0, b := Int64.maxValue, c := -1 }
  spells := by decide

/-- A program whose policy is full of brackets and keys. -/
def bracketed : Program where
  insns := [spelledLoadImm.insn, spelledJump.insn]
  axionPolicyText := text "(policy insns: [\x7bopcode a] POLICY # \x7d)"
  fits := by decide

def bracketedText : Text :=
  text "# a comment\r\n\n  POLICY\t(policy insns: [\x7bopcode a] POLICY # \x7d)"
    ++ text " \r\n\tload-Imm 0 -9223372036854775808 0\r\n   \n"
    ++ text "_jmp  0 9223372036854775807\t-1"

def bracketedJson : Text :=
  (documentTokens bracketed.axionPolicyText [spelledLoadImm, spelledJump]).flatMap
    fun token => text "\r\n  " ++ token.text

theorem bracketed_plain : PlainPolicy bracketed.axionPolicyText :=
  ⟨by decide, by decide⟩

theorem bracketed_rendersTextV1 : RendersTextV1 bracketed bracketedText := by
  refine ⟨[spelledLoadImm, spelledJump],
    [.filler, .filler, .policy, .insn spelledLoadImm, .filler,
      .insn spelledJump],
    [text "# a comment\r", [],
      text "  POLICY\t(policy insns: [\x7bopcode a] POLICY # \x7d) \r",
      text "\tload-Imm 0 -9223372036854775808 0\r", text "   ",
      text "_jmp  0 9223372036854775807\t-1"], rfl, .inl rfl, ?_, ?_⟩
  · have comment := @RendersLine.comment bracketed.axionPolicyText []
      (text " a comment\r") (by decide)
    have policy := @RendersLine.policy bracketed.axionPolicyText (text "  ")
      (text "\t") (text " \r") (by decide) (by decide) (by decide) (by decide)
    have loadImm := @RendersLine.insn bracketed.axionPolicyText spelledLoadImm
      (text "\t") (text " ") (text " ") (text " ") (text "\r") (by decide)
      (by decide) (by decide) (by decide) (by decide) (by decide) (by decide)
      (by decide)
    have jump := @RendersLine.insn bracketed.axionPolicyText spelledJump
      [] (text "  ") (text " ") (text "\t") [] (by decide)
      (by decide) (by decide) (by decide) (by decide) (by decide) (by decide)
      (by decide)
    exact .cons comment (.cons (.blank (by decide)) (.cons policy
      (.cons loadImm (.cons (.blank (by decide)) (.cons jump .nil)))))
  · have last := @Joined.unterminated (text "_jmp  0 9223372036854775807\t-1")
      (by decide) (by decide)
    exact .terminated (by decide) (.terminated (by decide) (.terminated
      (by decide) (.terminated (by decide) (.terminated (by decide) last))))

theorem bracketed_rendersTiscJsonV1 :
    RendersTiscJsonV1 bracketed bracketedJson :=
  ⟨[spelledLoadImm, spelledJump], rfl, Spaced.flatMap (by decide) _⟩

/-- Both formats carry the program. -/
theorem formats_agree_bracketed :
    PlainPolicy bracketed.axionPolicyText ∧ bracketed.insns ≠ [] ∧
      ∃ fromText fromJson : ProgramLoadResult,
        loadTextV1 bracketedText = .ok fromText ∧
          loadTiscJsonV1 bracketedJson = .ok fromJson ∧
          fromText.ok = true ∧ fromJson.ok = true ∧
          fromText.program = fromJson.program ∧
          fromText.program = bracketed :=
  ⟨bracketed_plain, by decide, formats_agree bracketed_plain (by decide)
    bracketed_rendersTextV1 bracketed_rendersTiscJsonV1⟩

end Example

end T81VM.ProgramIo
