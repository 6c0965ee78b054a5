import Mathlib
import Extrusion.Proofs.Build.Completion
import Extrusion.Proofs.Build.Routes
import Extrusion.Proofs.Builder.Skipping
import Extrusion.Proofs.Program.Strictness

/-!
# Lenient and strict builds

A program is read and run with one choice for the commands that are not known.
Either the reader keeps them and the machine passes over them, or the reader
refuses the first of them, and no machine ever sees one.
-/

namespace Extrusion

/-!
## Items
-/

section

variable {α : Type}

def isKnownItem : BuildItem α → Bool
  | .ok instruction => instruction.unknown?.isNone
  | .error _ => true

def knownItems (items : List (BuildItem α)) : List (BuildItem α) :=
  items.filter isKnownItem

end

section

variable {α : Type} [Scalar α] {builder : Builder α} {items : List (BuildItem α)}

theorem Builder.skipUnknown_accept {next : Builder α} {item : BuildItem α}
    (h : builder.accept item = .ok next) :
    next.machine.skipUnknown = builder.machine.skipUnknown := by
  obtain ⟨instruction, rfl, hhandle⟩ := handle_of_accept h
  have hkept := skipUnknown_handle builder instruction
  rw [hhandle] at hkept
  exact hkept

theorem Builder.accept_of_lenient (hlenient : builder.machine.skipUnknown = true)
    {item : BuildItem α} (h : isKnownItem item = false) : builder.accept item = .ok builder := by
  cases item with
  | error failure => cases h
  | ok instruction =>
      obtain ⟨error, hunknown⟩ := Option.isSome_iff_exists.mp (Option.isNone_eq_false_iff.mp h)
      rw [accept, handle_of_unknown hunknown, hlenient]
      rfl

theorem Builder.acceptAll_of_lenient (hlenient : builder.machine.skipUnknown = true) :
    (builder.acceptAll items).mapError Prod.snd =
      (builder.acceptAll (knownItems items)).mapError Prod.snd := by
  -- What is passed over still counts as an item, so only the failures are compared.
  unfold knownItems
  induction items generalizing builder with
  | nil => rfl
  | cons item items ih =>
      cases hknown : isKnownItem item with
      | false =>
          rw [List.filter_cons_of_neg (by rw [hknown]; exact Bool.false_ne_true),
            failure_acceptAll_cons (accept_of_lenient hlenient hknown)]
          exact ih hlenient
      | true =>
          rw [List.filter_cons_of_pos hknown]
          cases haccept : builder.accept item with
          | error failure =>
              rw [acceptAll_cons_of_error haccept, acceptAll_cons_of_error haccept]
          | ok next =>
              rw [failure_acceptAll_cons haccept, failure_acceptAll_cons haccept]
              exact ih ((skipUnknown_accept haccept).trans hlenient)

/-- A builder fails at an unknown command only where it is strict and comes upon
one, or where the failure is one of the items. -/
theorem Builder.unknown_of_acceptAll {count : Nat} {error : UnknownCommand}
    (h : builder.acceptAll items = .error (count, .unbuildable (.unknownCommand error))) :
    .error (.unbuildable (.unknownCommand error)) ∈ items ∨
      builder.machine.skipUnknown = false ∧
        ∃ instruction, .ok instruction ∈ items ∧ instruction.unknown? = some error := by
  induction items generalizing builder count with
  | nil => cases h
  | cons item items ih =>
      rcases acceptAll_cons_eq_error_iff.mp h with
        ⟨haccept, _⟩ | ⟨next, later, haccept, hrest, _⟩
      · rcases handle_of_accept_error haccept with rfl | ⟨instruction, error', rfl, hfailed, herror⟩
        · exact Or.inl List.mem_cons_self
        · cases herror
          rcases unknown_of_handle hfailed with ⟨hstrict, hunknown⟩
          exact Or.inr ⟨hstrict, instruction, List.mem_cons_self, hunknown⟩
      · rcases ih hrest with hmem | ⟨hstrict, instruction, hmem, hunknown⟩
        · exact Or.inl (List.mem_cons_of_mem item hmem)
        · rw [skipUnknown_accept haccept] at hstrict
          exact Or.inr ⟨hstrict, instruction, List.mem_cons_of_mem item hmem, hunknown⟩

end

/-!
## Streams
-/

namespace InstructionStream

variable {skipUnknown : Bool} {bytes : List UInt8}

/-- A stream gives what is read from its first lines, and may then end with a
syntax error or with bytes that are no text. -/
theorem items_ofBytes_eq (skipUnknown : Bool) (bytes : List UInt8) :
    ∃ count instructions, ∃ last : List StreamItem,
      Program.readLines skipUnknown 1 ((Text.lines (Text.readable bytes)).take count) =
        .ok instructions ∧
      (ofBytes skipUnknown bytes).items = instructions.map .ok ++ last ∧
      ∀ item ∈ last, ∃ failure, item = .error failure ∧
        ((∃ error, failure = .malformed error) ∨ failure = .unreadable .notText) := by
  cases hread : Program.readText skipUnknown (Text.readable bytes) with
  | error error =>
      obtain ⟨_, _, instructions, hinstructions, hitems⟩ := items_of_readText_error hread
      refine ⟨_, instructions, _, hinstructions, hitems, ?_⟩
      intro item hitem
      exact ⟨.malformed error, List.mem_singleton.mp hitem, Or.inl ⟨error, rfl⟩⟩
  | ok instructions =>
      have hall : Program.readLines skipUnknown 1
          ((Text.lines (Text.readable bytes)).take (Text.lines (Text.readable bytes)).length) =
            .ok instructions := by
        rw [List.take_length]
        exact hread
      refine ⟨_, instructions, _, hall, items_of_readText hread, ?_⟩
      intro item hitem
      unfold ending at hitem
      split at hitem
      · cases hitem
      · exact ⟨_, List.mem_singleton.mp hitem, Or.inr rfl⟩

theorem failure_of_mem_items {failure : Failure Float}
    (h : .error failure ∈ (ofBytes skipUnknown bytes).items) :
    (∃ error, failure = .malformed error) ∨ failure = .unreadable .notText := by
  obtain ⟨_, instructions, last, _, hitems, hlast⟩ := items_ofBytes_eq skipUnknown bytes
  rw [hitems, List.mem_append, List.mem_map] at h
  rcases h with ⟨instruction, _, hok⟩ | hmem
  · cases hok
  · obtain ⟨failure', heq, hfailure⟩ := hlast _ hmem
    cases heq
    exact hfailure

theorem unknown_of_mem_items {instruction : Instruction Float}
    (h : .ok instruction ∈ (ofBytes false bytes).items) : instruction.unknown? = none := by
  obtain ⟨_, instructions, last, hread, hitems, hlast⟩ := items_ofBytes_eq false bytes
  rw [hitems, List.mem_append, List.mem_map] at h
  rcases h with ⟨instruction', hmem, heq⟩ | hmem
  · cases heq
    exact firstUnknown_eq_none_iff.mp (Program.known_of_readLines hread).2 instruction hmem
  · obtain ⟨failure, heq, _⟩ := hlast _ hmem
    cases heq

end InstructionStream

namespace Build

/-!
## Loads
-/

theorem load_ne_unknown (control : Control) (settings : BuildSettings Float)
    (bytes : Option (List UInt8)) (error : UnknownCommand) :
    (load control settings bytes).2 ≠ .failed (.unbuildable (.unknownCommand error)) := by
  intro h
  cases hvalid : settings.validate with
  | error fault =>
      unfold load at h
      rw [hvalid] at h
      cases h
  | ok _ =>
      cases bytes with
      | none =>
          unfold load at h
          rw [hvalid] at h
          cases h
      | some bytes =>
          rw [load_of_valid hvalid] at h
          have hended := ended control settings
            (InstructionStream.ofBytes settings.skipUnknown bytes).items
          rw [h] at hended
          cases hended with
          | failed hfailed =>
              rcases Builder.unknown_of_acceptAll hfailed with
                hmem | ⟨hstrict, instruction, hmem, hunknown⟩
              · rcases InstructionStream.failure_of_mem_items hmem with ⟨_, hsyntax⟩ | htext
                · cases hsyntax
                · cases htext
              · have hskip : settings.skipUnknown = false := hstrict
                rw [hskip] at hmem
                rw [InstructionStream.unknown_of_mem_items hmem] at hunknown
                cases hunknown

section

variable {control : Control} {settings : BuildSettings Float}

theorem run_of_lenient (hlenient : settings.skipUnknown = true)
    (hstop : ∀ moment, control.stop moment = false) (items : List (BuildItem Float)) :
    (run control settings items).2 = (run control settings (knownItems items)).2 := by
  have houtcome : ∀ items : List (BuildItem Float), (run control settings items).2 =
      match ((Builder.new settings).acceptAll items).mapError Prod.snd with
      | .error failure => .failed failure
      | .ok builder => .completed builder.toModel := by
    intro items
    rw [outcome_of_unstopped hstop]
    cases (Builder.new settings).acceptAll items <;> rfl
  rw [houtcome, houtcome, Builder.acceptAll_of_lenient hlenient]

end

/-- A load ends with the syntax error for a code in one of the lines, unless the
lines before it cannot be built. -/
def Rejects (settings : BuildSettings Float) (bytes : List UInt8) (unknown : UnknownCommand) :
    Prop :=
  ∃ line earlier,
    (Text.lines (Text.readable bytes))[unknown.lineNumber - 1]? = some line ∧
    Program.readLines false 1 ((Text.lines (Text.readable bytes)).take (unknown.lineNumber - 1)) =
      .ok earlier ∧
    ∀ control : Control, (∀ moment, control.stop moment = false) →
      (load control settings (some bytes)).2 =
        match Model.ofInstructions settings earlier with
        | .error first => .failed first
        | .ok _ => .failed (.malformed (.ofLine unknown.lineNumber (Program.body line)
            (.unsupportedCommand unknown.code)))

theorem rejects_of_refuses {settings : BuildSettings Float} {bytes : List UInt8}
    {unknown : UnknownCommand} (hstrict : settings.skipUnknown = false)
    (h : Program.Refuses 1 (Text.lines (Text.readable bytes)) unknown) :
    Rejects settings bytes unknown := by
  obtain ⟨index, line, hline, hnumber, hrefused⟩ := h
  obtain ⟨_, _, earlier, hearlier, hitems⟩ := InstructionStream.items_of_readText_error hrefused
  have hindex : unknown.lineNumber - 1 = index := by
    rw [hnumber, Nat.add_sub_cancel_left]
  refine ⟨line, earlier, ?_, hearlier, ?_⟩
  · rw [hindex]
    exact hline
  · intro control hstop
    cases hvalid : settings.validate with
    | error fault =>
        unfold load Model.ofInstructions
        rw [hvalid]
        rfl
    | ok _ =>
        rw [load_of_valid hvalid, hstrict, hitems, outcome_instructions_failure hvalid hstop]
        cases Model.ofInstructions settings earlier <;> rfl

structure SkippingRule (settings : BuildSettings Float) : Prop where
  passed : ∀ instructions,
    Builder.modelOf (settings.skipping true) instructions =
      Builder.modelOf (settings.skipping true) (knownInstructions instructions)
  replayed : ∀ instructions,
    (Builder.new settings).replay instructions =
      (Builder.new settings).replay (knownInstructions instructions)
  agreed : ∀ instructions, firstUnknown? instructions = none →
    Builder.modelOf (settings.skipping false) instructions =
      Builder.modelOf (settings.skipping true) instructions
  refused : ∀ before instruction after error, firstUnknown? before = none →
    instruction.unknown? = some error →
      Builder.modelOf (settings.skipping false) (before ++ instruction :: after) =
        Builder.modelOf (settings.skipping true) before >>= fun _ =>
          .error (.unknownCommand error)
  failed : ∀ before after first, Builder.modelOf settings before = .error first →
    Builder.modelOf settings (before ++ after) = .error first
  streamed : ∀ control : Control, (∀ moment, control.stop moment = false) → ∀ instructions,
    (run control settings (instructions.map .ok)).2 =
      .ofExcept ((Builder.modelOf settings instructions).mapError .unbuildable)
  loaded : ∀ control bytes error,
    (load control settings bytes).2 ≠ .failed (.unbuildable (.unknownCommand error))
  loadPassed : settings.skipUnknown = true → settings.validate = .ok () →
    ∀ control : Control, (∀ moment, control.stop moment = false) → ∀ bytes,
      (load control settings (some bytes)).2 =
        (run control settings (knownItems (InstructionStream.ofBytes true bytes).items)).2
  loadRefused : settings.skipUnknown = false → ∀ bytes instructions unknown,
    Program.readText true (Text.readable bytes) = .ok instructions →
      firstUnknown? instructions = some unknown → Rejects settings bytes unknown
  /-- Where the lenient reading fails, what it has come by before counts. -/
  loadRefusedBefore : settings.skipUnknown = false → ∀ bytes error before unknown,
    Program.FailsBehind 1 (Text.lines (Text.readable bytes)) error before →
      firstUnknown? before = some unknown → Rejects settings bytes unknown

theorem skippingRule (settings : BuildSettings Float) : SkippingRule settings where
  passed := by
    intro instructions
    exact Builder.modelOf_lenient settings
  replayed := by
    intro instructions
    exact Builder.replay_knownInstructions (Builder.new settings) instructions
  agreed := by
    intro instructions h
    exact Builder.modelOf_of_known settings h
  refused := by
    intro before instruction after error hbefore hunknown
    exact Builder.modelOf_of_unknown settings hbefore hunknown after
  failed := by
    intro before after first h
    exact Builder.modelOf_append_of_error settings h after
  streamed := by
    intro control hstop instructions
    exact outcome_handleAll hstop instructions
  loaded := by
    intro control bytes error
    exact load_ne_unknown control settings bytes error
  loadPassed := by
    intro hlenient hvalid control hstop bytes
    rw [load_of_valid hvalid, hlenient]
    exact run_of_lenient hlenient hstop _
  loadRefused := by
    intro hstrict bytes instructions unknown hread hunknown
    exact rejects_of_refuses hstrict (Program.refuses_of_readLines hread hunknown)
  loadRefusedBefore := by
    intro hstrict bytes error before unknown hfails hunknown
    exact rejects_of_refuses hstrict (hfails.refuses hunknown)

end Build
end Extrusion
