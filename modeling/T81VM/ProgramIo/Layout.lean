import T81VM.ProgramIo.JsonGrammar
import T81VM.ProgramIo.TextV1

/-!
# The layout of text programs

The text loader reads line by line, and what a line does depends on neither
the spaces around it nor the lines before it.  So a text can be laid out anew,
and a text that follows another one adds its instructions to it.
-/

namespace T81VM.ProgramIo

open Tisc

/-! ## What a line does -/

/-- What a line does to the result, whatever was loaded before it. -/
inductive Effect where
  | skip
  | policy (axionPolicyText : Text)
  | refuse (error : Text)
  | instruction (insn : Insn)

def lineEffect (line : Text) : Effect :=
  match trim line with
  | [] => .skip
  | first :: others =>
      if isByte '#' first then .skip
      else if (extractWord (first :: others)).1 = text "POLICY" then
        .policy (trim ((extractWord (first :: others)).2.takeWhile fun byte =>
          !isByte '\n' byte))
      else
        match readInsn line with
        | none => .refuse (text "unknown opcode in text program: "
            ++ (extractWord (first :: others)).1)
        | some insn => .instruction insn

namespace Effect

def apply (out : ProgramLoadResult) :
    Effect → Except StdException (ProgramLoadResult × Bool)
  | .skip => .ok (out, true)
  | .policy axionPolicyText =>
      .ok ({ out with program := { out.program with axionPolicyText } }, true)
  | .refuse error => .ok ({ out with error }, false)
  | .instruction insn => do
      let program ← pushInsn out.program insn
      return ({ out with program }, true)

def isPolicy : Effect → Bool
  | .policy _ => true
  | _ => false

end Effect

section Lines

variable {out : ProgramLoadResult} {line other : Text}
  {lines others later : List Text}

theorem loadLine_eq_apply (out : ProgramLoadResult) (line : Text) :
    loadLine out line = (lineEffect line).apply out := by
  cases trimmed : trim line with
  | nil => simp only [loadLine, lineEffect, trimmed, Effect.apply]
  | cons first rest =>
      simp only [lineEffect, trimmed]
      split
      · rename_i comment
        simp only [loadLine, trimmed, comment, if_true, Effect.apply]
      · rename_i visible
        split
        · rename_i policy
          simp only [loadLine, trimmed, visible, Bool.false_eq_true, if_false,
            loadStatement, policy, if_true, Effect.apply]
        · rename_i notPolicy
          have statement : isStatement line = true := by
            simp [isStatement, trimmed, visible, notPolicy]
          rw [loadLine_statement statement, trimmed]
          cases readInsn line <;> rfl

/-- The spaces around a line do not matter. -/
theorem lineEffect_congr (same : trim other = trim line) :
    lineEffect other = lineEffect line := by
  rw [lineEffect, lineEffect, readInsn, readInsn, same]

/-! ## Laying a text out anew -/

/-- A blank line or a comment. -/
def isSkipped (line : Text) : Bool :=
  match trim line with
  | [] => true
  | first :: _ => isByte '#' first

theorem lineEffect_of_isSkipped (skipped : isSkipped line = true) :
    lineEffect line = .skip := by
  unfold isSkipped at skipped
  unfold lineEffect
  split at skipped
  · rfl
  · rw [if_pos skipped]

/-- The same lines laid out anew: with other spaces around them, and with
blank lines and comments put in and taken out. -/
inductive Relaid : List Text → List Text → Prop where
  | none : Relaid [] []
  | kept {line other : Text} {lines others : List Text}
      (same : trim other = trim line) (rest : Relaid lines others) :
      Relaid (line :: lines) (other :: others)
  | removed {line : Text} {lines others : List Text}
      (skipped : isSkipped line = true) (rest : Relaid lines others) :
      Relaid (line :: lines) others
  | added {other : Text} {lines others : List Text}
      (skipped : isSkipped other = true) (rest : Relaid lines others) :
      Relaid lines (other :: others)

theorem loadLines_of_isSkipped (skipped : isSkipped line = true) :
    loadLines out (line :: lines) = loadLines out lines := by
  rw [loadLines_cons, loadLine_eq_apply, lineEffect_of_isSkipped skipped]
  rfl

theorem Relaid.loadLines_eq (relaid : Relaid lines others) :
    loadLines out others = loadLines out lines := by
  induction relaid generalizing out with
  | none => rfl
  | kept same rest induction =>
      rw [loadLines_cons, loadLines_cons, loadLine_eq_apply, loadLine_eq_apply,
        lineEffect_congr same]
      congr 1
      funext answer
      rcases answer with ⟨next, _ | _⟩
      · rfl
      · exact induction
  | removed skipped rest induction =>
      rw [loadLines_of_isSkipped skipped]
      exact induction
  | added skipped rest induction =>
      rw [loadLines_of_isSkipped skipped]
      exact induction

/-- The text with its line feeds written as carriage return and line feed. -/
def crlf (input : Text) : Text :=
  input.flatMap fun byte =>
    if isByte '\n' byte then text "\r\n" else [byte]

/-- Every line but an unended last one gets a carriage return. -/
theorem getlines_crlf (input : Text) :
    List.Forall₂
      (fun line other => other = line ∨ other = line ++ text "\r")
      (getlines input) (getlines (crlf input)) := by
  induction input with
  | nil => exact .nil
  | cons byte rest induction =>
      rw [crlf, List.flatMap_cons, getlines]
      by_cases newline : isByte '\n' byte = true
      · rw [if_pos newline, if_pos newline]
        exact .cons (.inr rfl) induction
      · rw [if_neg newline, if_neg newline, List.singleton_append, getlines,
          if_neg newline]
        unfold crlf at induction
        generalize getlines rest = lines at induction ⊢
        generalize getlines (rest.flatMap _) = others at induction ⊢
        cases induction with
        | nil => exact .cons (.inl rfl) .nil
        | cons here later =>
            refine .cons ?_ later
            rcases here with rfl | rfl
            · exact .inl rfl
            · exact .inr rfl

theorem relaid_crlf (input : Text) :
    Relaid (getlines input) (getlines (crlf input)) := by
  have blank : Blank (text "\r") := by
    unfold Blank
    decide
  have pairs := getlines_crlf input
  generalize getlines input = lines at pairs
  generalize getlines (crlf input) = others at pairs
  induction pairs with
  | nil => exact .none
  | cons here _ induction =>
      refine .kept ?_ induction
      rcases here with rfl | rfl
      · rfl
      · exact trim_pad (List.forall_mem_nil _) blank

/-- Neither the spaces around lines nor blank lines, comments and the kind of
line ends have a meaning. -/
structure LayoutFree (input : Text) : Prop where
  relaid : ∀ other, Relaid (getlines input) (getlines other) →
    loadTextV1 other = loadTextV1 input
  crlf : loadTextV1 (crlf input) = loadTextV1 input

/-- Every text may be laid out anew. -/
theorem layoutFree (input : Text) : LayoutFree input := by
  have relaid : ∀ other, Relaid (getlines input) (getlines other) →
      loadTextV1 other = loadTextV1 input :=
    fun _ laid => laid.loadLines_eq
  exact ⟨relaid, relaid _ (relaid_crlf input)⟩

/-! ## One text behind another -/

/-- The last line of the text is ended. -/
def Ended (input : Text) : Prop :=
  ∀ byte ∈ input.getLast?, isByte '\n' byte = true

theorem getlines_ne_nil {byte : UInt8} {rest : Text} :
    getlines (byte :: rest) ≠ [] := by
  rw [getlines]
  split
  · exact List.cons_ne_nil _ _
  · split <;> exact List.cons_ne_nil _ _

theorem getlines_append {first second : Text} (ended : Ended first) :
    getlines (first ++ second) = getlines first ++ getlines second := by
  induction first with
  | nil => rfl
  | cons byte rest induction =>
      rw [List.cons_append, getlines, getlines]
      cases rest with
      | nil =>
          have newline : isByte '\n' byte = true := ended byte rfl
          rw [if_pos newline, if_pos newline]
          rfl
      | cons next others =>
          have later := induction fun last member => ended last (by
            rw [List.getLast?_cons_cons]
            exact member)
          rw [later]
          split
          · rfl
          · cases lines : getlines (next :: others) with
            | nil => exact absurd lines getlines_ne_nil
            | cons line lines => rfl

/-- A line leaves the verdict and the format alone, and the error if the loop
goes on. -/
theorem Effect.apply_kept {effect : Effect} {next : ProgramLoadResult}
    {goesOn : Bool} (applied : effect.apply out = .ok (next, goesOn)) :
    next.ok = out.ok ∧ next.format = out.format ∧
      (goesOn = true → next.error = out.error) := by
  cases effect with
  | skip | policy =>
      cases applied
      exact ⟨rfl, rfl, fun _ => rfl⟩
  | refuse =>
      cases applied
      exact ⟨rfl, rfl, nofun⟩
  | instruction insn =>
      rw [Effect.apply, bind_eq_ok] at applied
      obtain ⟨program, _, same⟩ := applied
      cases same
      exact ⟨rfl, rfl, fun _ => rfl⟩

/-- An accepted text sets no error. -/
theorem kept_of_loadLines {final : ProgramLoadResult}
    (loaded : loadLines out lines = .ok final) (fresh : out.ok = false)
    (accepted : final.ok = true) :
    final.format = out.format ∧ final.error = out.error := by
  induction lines generalizing out with
  | nil =>
      cases loaded
      exact ⟨rfl, rfl⟩
  | cons line lines induction =>
      rw [loadLines_cons, loadLine_eq_apply, bind_eq_ok] at loaded
      obtain ⟨⟨next, goesOn⟩, applied, rest⟩ := loaded
      obtain ⟨verdict, format, error⟩ := Effect.apply_kept applied
      cases goesOn with
      | false =>
          cases rest
          rw [verdict, fresh] at accepted
          cases accepted
      | true =>
          obtain ⟨sameFormat, sameError⟩ := induction rest (verdict.trans fresh)
          exact ⟨sameFormat.trans format, sameError.trans (error rfl)⟩

/-- The loop over one list of lines goes on with the next one. -/
theorem loadLines_append (fresh : out.ok = false) :
    loadLines out (lines ++ later) = loadLines out lines >>= fun left =>
      if left.ok then loadLines { left with ok := false } later
      else .ok left := by
  induction lines generalizing out with
  | nil =>
      have same : out = { out with ok := false } := by rw [← fresh]
      rw [List.nil_append, loadLines_nil]
      exact congrArg (loadLines · later) same
  | cons line lines induction =>
      rw [List.cons_append, loadLines_cons, loadLines_cons, loadLine_eq_apply]
      cases applied : (lineEffect line).apply out with
      | error raised => rfl
      | ok answer =>
          obtain ⟨next, goesOn⟩ := answer
          have kept := (Effect.apply_kept applied).1.trans fresh
          cases goesOn with
          | false =>
              show Except.ok next =
                if next.ok = true then loadLines { next with ok := false } later
                else .ok next
              rw [if_neg (by simp [kept])]
          | true => exact induction kept

/-- A policy stands before the first refused line. -/
def setsPolicy : List Text → Bool
  | [] => false
  | line :: lines =>
      match lineEffect line with
      | .policy _ => true
      | .refuse _ => false
      | .skip | .instruction _ => setsPolicy lines

/-- The result of one text behind another: the verdict and the error of the
second one, the instructions of both, and the policy that was set last. -/
structure Follows (left right : ProgramLoadResult) (sets : Bool)
    (whole : ProgramLoadResult) : Prop where
  ok : whole.ok = right.ok
  format : whole.format = right.format
  error : whole.error = right.error
  insns : whole.program.insns = left.program.insns ++ right.program.insns
  policy : whole.program.axionPolicyText =
    if sets then right.program.axionPolicyText
    else left.program.axionPolicyText

section Follows

variable {left right whole next final : ProgramLoadResult} {sets : Bool}

/-- An instruction that fits behind both programs. -/
theorem Follows.pushInsn (follows : Follows left right sets whole)
    {insn : Insn} {program : Program}
    (room : left.program.insns.length + program.insns.length ≤ maxInsns)
    (pushed : pushInsn right.program insn = .ok program) :
    ∃ target, ProgramIo.pushInsn whole.program insn = .ok target ∧
      Follows left { right with program } sets
        { whole with program := target } := by
  obtain ⟨insns, policy⟩ := pushInsn_eq_ok pushed
  have fits : whole.program.insns.length < maxInsns := by
    rw [insns, List.length_append, List.length_singleton] at room
    rw [follows.insns, List.length_append]
    omega
  obtain ⟨target, there, grown, same⟩ := pushInsn_room insn fits
  refine ⟨target, there, follows.ok, follows.format, follows.error, ?_, ?_⟩
  · rw [grown, insns, follows.insns, List.append_assoc]
  · rw [same, policy]
    exact follows.policy

/-- A loop never takes instructions away. -/
theorem length_le_of_loadLines (loaded : loadLines out lines = .ok final) :
    out.program.insns.length ≤ final.program.insns.length := by
  induction lines generalizing out with
  | nil =>
      cases loaded
      exact Nat.le_refl _
  | cons line lines induction =>
      rw [loadLines_cons, loadLine_eq_apply, bind_eq_ok] at loaded
      obtain ⟨⟨next, goesOn⟩, applied, rest⟩ := loaded
      have grown : out.program.insns.length ≤ next.program.insns.length := by
        cases effect : lineEffect line with
        | skip | policy | refuse =>
            rw [effect] at applied
            cases applied
            exact Nat.le_refl _
        | instruction insn =>
            rw [effect, Effect.apply, bind_eq_ok] at applied
            obtain ⟨program, pushed, same⟩ := applied
            cases same
            rw [(pushInsn_eq_ok pushed).1]
            simp
      cases goesOn with
      | false =>
          cases rest
          exact grown
      | true => exact grown.trans (induction rest)

/-- The loop over the second text does behind the first one what it does
alone. -/
theorem Follows.loadLines (follows : Follows left out sets whole)
    (loaded : loadLines out lines = .ok final)
    (room : left.program.insns.length + final.program.insns.length ≤
      maxInsns) :
    ∃ last, ProgramIo.loadLines whole lines = .ok last ∧
      Follows left final (sets || setsPolicy lines) last := by
  induction lines generalizing out whole sets with
  | nil =>
      cases loaded
      refine ⟨_, rfl, rfl, follows.format, follows.error, follows.insns, ?_⟩
      rw [setsPolicy, Bool.or_false]
      exact follows.policy
  | cons line lines induction =>
      rw [loadLines_cons, loadLine_eq_apply] at loaded ⊢
      rw [setsPolicy]
      cases effect : lineEffect line with
      | skip =>
          rw [effect] at loaded
          exact induction follows loaded
      | policy axionPolicyText =>
          rw [effect] at loaded
          have set : Follows left
              { out with program := { out.program with axionPolicyText } } true
              { whole with program :=
                { whole.program with axionPolicyText } } :=
            ⟨follows.ok, follows.format, follows.error, follows.insns, rfl⟩
          obtain ⟨last, finished, behind⟩ := induction set loaded
          exact ⟨last, finished, by simpa using behind⟩
      | refuse error =>
          rw [effect] at loaded
          cases loaded
          refine ⟨_, rfl, follows.ok, follows.format, rfl, follows.insns, ?_⟩
          rw [Bool.or_false]
          exact follows.policy
      | instruction insn =>
          rw [effect, Effect.apply, bind_eq_ok] at loaded
          obtain ⟨⟨next, goesOn⟩, applied, rest⟩ := loaded
          obtain ⟨program, pushed, same⟩ := bind_eq_ok.mp applied
          cases same
          have grown := length_le_of_loadLines rest
          obtain ⟨target, there, behind⟩ := follows.pushInsn
            (by simp only at grown; omega) pushed
          obtain ⟨last, finished, followed⟩ := induction behind rest
          refine ⟨last, ?_, followed⟩
          rw [Effect.apply, there]
          exact finished

end Follows

/-- Loading one text behind another. -/
structure Concatenates (first second : Text) : Prop where
  thrown : ∀ raised, loadTextV1 first = .error raised →
    loadTextV1 (first ++ second) = .error raised
  refused : ∀ left, loadTextV1 first = .ok left → left.ok = false →
    loadTextV1 (first ++ second) = .ok left
  follows : ∀ left right, loadTextV1 first = .ok left → left.ok = true →
    loadTextV1 second = .ok right →
    left.program.insns.length + right.program.insns.length ≤ maxInsns →
      ∃ whole, loadTextV1 (first ++ second) = .ok whole ∧
        Follows left right (setsPolicy (getlines second)) whole

/-- A text whose lines are ended is loaded first, and what stands behind it
is loaded behind it. -/
theorem concatenates {first second : Text} (ended : Ended first) :
    Concatenates first second := by
  have split : loadTextV1 (first ++ second) =
      loadTextV1 first >>= fun left =>
        if left.ok then loadLines { left with ok := false } (getlines second)
        else .ok left := by
    rw [loadTextV1, getlines_append ended, loadLines_append rfl]
    rfl
  refine ⟨fun raised failed => ?_, fun left loaded refused => ?_,
    fun left right loaded accepted behind room => ?_⟩
  · rw [split, failed]
    rfl
  · rw [split, loaded]
    exact if_neg (by simp [refused])
  · obtain ⟨format, error⟩ := kept_of_loadLines loaded rfl accepted
    have begun : Follows left { format := .textV1 } false
        { left with ok := false } :=
      ⟨rfl, format, error, (List.append_nil _).symm, rfl⟩
    obtain ⟨whole, finished, follows⟩ := begun.loadLines behind room
    refine ⟨whole, ?_, follows⟩
    rw [split, loaded]
    show (if left.ok = true then _ else _) = _
    rw [if_pos accepted]
    exact finished

theorem concatenates_nopHalt :
    Concatenates (text "NOP 0 0 0\n") (text "POLICY (tier 1)\nHALT 0 0 0") := by
  have last : (text "NOP 0 0 0\n").getLast? = some 10 := rfl
  apply concatenates
  intro byte member
  rw [last] at member
  cases member
  rfl

end Lines

end T81VM.ProgramIo
