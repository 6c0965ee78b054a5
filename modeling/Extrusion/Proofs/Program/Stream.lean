import Extrusion.Program.Stream
import Extrusion.Proofs.Results
import Extrusion.Proofs.Text.Lines

/-!
# Streams and texts

Reading a stream to its end gives what reading the text of its lines gives.
The two cut lines in different ways, at line feeds among bytes and among
characters, and the ends of lines that one drops the other reads and drops
later.
-/

namespace Extrusion
namespace Text

theorem dropEnd_chomp {p : Char → Bool} (hfeed : p '\n' = true) (hreturn : p '\r' = true)
    (line : List Char) : dropEnd p (chomp line) = dropEnd p line := by
  unfold chomp
  split
  · rename_i cs hreverse
    simp [dropEnd, hreverse, hfeed, hreturn]
  · rename_i cs hreverse
    simp [dropEnd, hreverse, hfeed]
  · rfl

end Text

namespace Program

theorem readLine_chomp (skipUnknown : Bool) (lineNumber : Nat) (line : String) :
    readLine skipUnknown lineNumber (String.ofList (Text.chomp line.toList)) =
      readLine skipUnknown lineNumber line := by
  simp only [readLine, String.toList_ofList, Text.dropEnd_chomp (p := isLineEnd) rfl rfl]

theorem readLines_chomp (skipUnknown : Bool) (lineNumber : Nat) (lines : List String) :
    readLines skipUnknown lineNumber
        (lines.map fun line => String.ofList (Text.chomp line.toList)) =
      readLines skipUnknown lineNumber lines := by
  induction lines generalizing lineNumber with
  | nil => rfl
  | cons line lines ih => simp only [List.map_cons, readLines, readLine_chomp, ih]

section

variable {skipUnknown : Bool} {lineNumber : Nat} {line : String} {lines : List String}
  {here instructions : List (Instruction Float)} {error : SyntaxError}

theorem readLines_cons_of_ok (h : readLine skipUnknown lineNumber line = .ok here) :
    readLines skipUnknown lineNumber (line :: lines) =
      (readLines skipUnknown (lineNumber + 1) lines).map (here ++ ·) := by
  rw [readLines, h]
  cases readLines skipUnknown (lineNumber + 1) lines <;> rfl

theorem readLines_cons_of_error (h : readLine skipUnknown lineNumber line = .error error) :
    readLines skipUnknown lineNumber (line :: lines) = .error error := by
  rw [readLines, h]
  rfl

theorem readLines_cons_eq_ok_iff :
    readLines skipUnknown lineNumber (line :: lines) = .ok instructions ↔
      ∃ here later, readLine skipUnknown lineNumber line = .ok here ∧
        readLines skipUnknown (lineNumber + 1) lines = .ok later ∧
          instructions = here ++ later := by
  rw [readLines, bind_eq_ok_iff]
  constructor
  · rintro ⟨here, hhere, h⟩
    obtain ⟨later, hlater, hall⟩ := bind_eq_ok_iff.mp h
    cases hall
    exact ⟨here, later, hhere, hlater, rfl⟩
  · rintro ⟨here, later, hhere, hlater, rfl⟩
    exact ⟨here, hhere, bind_eq_ok_iff.mpr ⟨later, hlater, rfl⟩⟩

theorem readLines_cons_eq_error_iff :
    readLines skipUnknown lineNumber (line :: lines) = .error error ↔
      readLine skipUnknown lineNumber line = .error error ∨
        ∃ here, readLine skipUnknown lineNumber line = .ok here ∧
          readLines skipUnknown (lineNumber + 1) lines = .error error := by
  rw [readLines, bind_eq_error_iff]
  apply or_congr_right
  apply exists_congr
  intro here
  apply and_congr_right
  intro _
  rw [bind_eq_error_iff]
  constructor
  · rintro (h | ⟨_, _, hnever⟩)
    · exact h
    · cases hnever
  · intro h
    exact Or.inl h

end

theorem lineNumber_of_readLine {skipUnknown : Bool} {lineNumber : Nat} {line : String}
    {commands : List (Instruction Float)} (h : readLine skipUnknown lineNumber line = .ok commands)
    {instruction : Instruction Float} (hmem : instruction ∈ commands) :
    instruction.lineNumber = lineNumber := by
  simp only [readLine] at h
  split at h
  · cases h
    rcases List.mem_map.mp hmem with ⟨command, _, rfl⟩
    rfl
  · cases h

theorem lineNumber_of_readLine_error {skipUnknown : Bool} {lineNumber : Nat} {line : String}
    {error : SyntaxError} (h : readLine skipUnknown lineNumber line = .error error) :
    error.lineNumber = lineNumber := by
  simp only [readLine] at h
  split at h
  · cases h
  · cases h
    rfl

end Program

namespace InstructionStream

open Program

/-!
# What a stream gives
-/

def itemsOf (skipUnknown : Bool) (lineNumber : Nat) :
    List (List UInt8) → List (StreamItem × Nat)
  | [] => []
  | bytes :: lines =>
      match Text.decode? bytes with
      | none => [(.error (.unreadable .notText), lineNumber)]
      | some line =>
          match readLine skipUnknown (lineNumber + 1) line with
          | .error error => [(.error (.malformed error), lineNumber + 1)]
          | .ok here =>
              here.map (fun instruction => (.ok instruction, lineNumber + 1)) ++
                itemsOf skipUnknown (lineNumber + 1) lines

theorem run_of_next_none {stream rest : InstructionStream} (h : stream.next = (none, rest)) :
    stream.run = ([], rest) := by
  unfold run
  split
  · rename_i rest' h'
    rw [h] at h'
    cases h'
    rfl
  · rename_i item rest' h'
    rw [h] at h'
    cases h'

theorem run_of_next_some {stream rest : InstructionStream} {item : StreamItem}
    (h : stream.next = (some item, rest)) :
    stream.run = ((item, rest.lineNumber) :: rest.run.1, rest.run.2) := by
  rw [run]
  split
  · rename_i rest' h'
    rw [h] at h'
    cases h'
  · rename_i item' rest' h'
    rw [h] at h'
    cases h'
    rfl

theorem run_congr_next {stream other : InstructionStream} (h : stream.next = other.next) :
    stream.run = other.run := by
  cases hnext : other.next with
  | mk item rest =>
      cases item with
      | none => rw [run_of_next_none hnext, run_of_next_none (h.trans hnext)]
      | some item => rw [run_of_next_some hnext, run_of_next_some (h.trans hnext)]

theorem run_finished (skipUnknown : Bool) (lines : List (List UInt8)) (lineNumber : Nat) :
    run ⟨skipUnknown, lines, lineNumber, [], true⟩ =
      ([], ⟨skipUnknown, lines, lineNumber, [], true⟩) :=
  run_of_next_none rfl

theorem run_pending (skipUnknown : Bool) (lines : List (List UInt8)) (lineNumber : Nat)
    (pending : List (Instruction Float)) :
    (run ⟨skipUnknown, lines, lineNumber, pending, false⟩).1 =
      pending.map (fun instruction => (.ok instruction, lineNumber)) ++
        (run ⟨skipUnknown, lines, lineNumber, [], false⟩).1 := by
  induction pending with
  | nil => rfl
  | cons instruction pending ih =>
      have hnext : next ⟨skipUnknown, lines, lineNumber, instruction :: pending, false⟩ =
          (some (.ok instruction), ⟨skipUnknown, lines, lineNumber, pending, false⟩) := rfl
      rw [run_of_next_some hnext, ih]
      rfl

theorem run_eq_itemsOf (skipUnknown : Bool) (lines : List (List UInt8)) (lineNumber : Nat) :
    (run ⟨skipUnknown, lines, lineNumber, [], false⟩).1 = itemsOf skipUnknown lineNumber lines := by
  induction lines generalizing lineNumber with
  | nil =>
      have hnext : next ⟨skipUnknown, [], lineNumber, [], false⟩ =
          (none, ⟨skipUnknown, [], lineNumber, [], true⟩) := rfl
      rw [run_of_next_none hnext]
      rfl
  | cons bytes lines ih =>
      have hnext : next ⟨skipUnknown, bytes :: lines, lineNumber, [], false⟩ =
          advance skipUnknown lineNumber (bytes :: lines) := rfl
      rw [advance] at hnext
      rw [itemsOf]
      cases hdecode : Text.decode? bytes with
      | none =>
          simp only [hdecode] at hnext
          rw [run_of_next_some hnext, run_finished]
      | some line =>
          simp only [hdecode] at hnext
          cases hread : readLine skipUnknown (lineNumber + 1) line with
          | error error =>
              simp only [hread] at hnext ⊢
              rw [run_of_next_some hnext, run_finished]
          | ok here =>
              cases here with
              | nil =>
                  simp only [hread] at hnext ⊢
                  have hsame : next ⟨skipUnknown, bytes :: lines, lineNumber, [], false⟩ =
                      next ⟨skipUnknown, lines, lineNumber + 1, [], false⟩ := hnext
                  rw [run_congr_next hsame, ih]
                  rfl
              | cons instruction pending =>
                  simp only [hread] at hnext ⊢
                  rw [run_of_next_some hnext, run_pending, ih]
                  rfl

theorem next_of_advance_none {skipUnknown : Bool} {lineNumber : Nat}
    {lines : List (List UInt8)} {rest : InstructionStream}
    (h : advance skipUnknown lineNumber lines = (none, rest)) : rest.next = (none, rest) := by
  induction lines generalizing lineNumber with
  | nil =>
      cases h
      rfl
  | cons bytes lines ih =>
      rw [advance] at h
      split at h
      · cases h
      · split at h
        · cases h
        · exact ih h
        · cases h

theorem next_of_next_none {stream rest : InstructionStream} (h : stream.next = (none, rest)) :
    rest.next = (none, rest) := by
  have hstream := h
  unfold next at h
  split at h
  · cases h
  · split at h
    · cases h
      exact hstream
    · exact next_of_advance_none h

theorem next_last (stream : InstructionStream) :
    stream.run.2.next = (none, stream.run.2) := by
  fun_induction run stream with
  | case1 stream rest h => exact next_of_next_none h
  | case2 stream item rest h items last hrun ih =>
      rw [hrun] at ih
      exact ih

/-!
# Items and texts
-/

/-- How many lines have been read when an item is given, out of `count` lines
of text. -/
def linesReadAt (count : Nat) : StreamItem → Nat
  | .ok instruction => instruction.lineNumber
  | .error (.malformed error) => error.lineNumber
  | .error _ => count

def ending (lines : List (List UInt8)) : List StreamItem :=
  if Text.allText lines then [] else [.error (.unreadable .notText)]

theorem itemsOf_of_readLines {skipUnknown : Bool} {lineNumber : Nat}
    {lines : List (List UInt8)} {commands : List (Instruction Float)}
    (h : readLines skipUnknown (lineNumber + 1) (Text.textLines lines) = .ok commands) :
    (itemsOf skipUnknown lineNumber lines).map (·.1) = commands.map .ok ++ ending lines := by
  induction lines generalizing lineNumber commands with
  | nil =>
      cases h
      rfl
  | cons bytes lines ih =>
      rw [Text.textLines] at h
      rw [itemsOf]
      cases hdecode : Text.decode? bytes with
      | none =>
          simp only [hdecode] at h
          cases h
          simp [ending, Text.allText, hdecode]
      | some line =>
          simp only [hdecode] at h
          obtain ⟨here, later, hread, hlater, rfl⟩ := readLines_cons_eq_ok_iff.mp h
          have hending : ending (bytes :: lines) = ending lines := by
            simp [ending, Text.allText, hdecode]
          simp only [hread, List.map_append, List.map_map, ih hlater, hending,
            List.append_assoc]
          rfl

theorem itemsOf_of_readLines_error {skipUnknown : Bool} {lineNumber : Nat}
    {lines : List (List UInt8)} {error : SyntaxError}
    (h : readLines skipUnknown (lineNumber + 1) (Text.textLines lines) = .error error) :
    lineNumber < error.lineNumber ∧ error.lineNumber ≤ lineNumber + (Text.textLines lines).length ∧
      ∃ commands,
        readLines skipUnknown (lineNumber + 1)
            ((Text.textLines lines).take (error.lineNumber - (lineNumber + 1))) = .ok commands ∧
          (itemsOf skipUnknown lineNumber lines).map (·.1) =
            commands.map .ok ++ [.error (.malformed error)] := by
  induction lines generalizing lineNumber with
  | nil => cases h
  | cons bytes lines ih =>
      rw [Text.textLines] at h ⊢
      rw [itemsOf]
      cases hdecode : Text.decode? bytes with
      | none =>
          simp only [hdecode] at h
          cases h
      | some line =>
          simp only [hdecode, List.length_cons] at h ⊢
          rcases readLines_cons_eq_error_iff.mp h with hread | ⟨here, hread, hlater⟩
          · have hnumber := lineNumber_of_readLine_error hread
            refine ⟨by omega, by omega, [], ?_, ?_⟩
            · rw [hnumber, Nat.sub_self, List.take_zero]
              rfl
            · rw [hread]
              rfl
          · rcases ih hlater with ⟨hlow, hhigh, commands, hcommands, hitems⟩
            refine ⟨by omega, by omega, here ++ commands, ?_, ?_⟩
            · have htake : error.lineNumber - (lineNumber + 1) =
                  error.lineNumber - (lineNumber + 1 + 1) + 1 := by omega
              rw [htake, List.take_succ_cons]
              exact readLines_cons_eq_ok_iff.mpr ⟨here, commands, hread, hcommands, rfl⟩
            · simp only [hread, List.map_append, List.map_map, hitems, List.append_assoc]
              rfl

theorem linesReadAt_of_mem_itemsOf {skipUnknown : Bool} {lineNumber : Nat}
    {lines : List (List UInt8)} {entry : StreamItem × Nat}
    (h : entry ∈ itemsOf skipUnknown lineNumber lines) :
    entry.2 = linesReadAt (lineNumber + (Text.textLines lines).length) entry.1 := by
  induction lines generalizing lineNumber with
  | nil => cases h
  | cons bytes lines ih =>
      rw [itemsOf] at h
      rw [Text.textLines]
      cases hdecode : Text.decode? bytes with
      | none =>
          simp only [hdecode, List.mem_singleton] at h
          subst entry
          rfl
      | some line =>
          simp only [hdecode] at h ⊢
          cases hread : readLine skipUnknown (lineNumber + 1) line with
          | error error =>
              simp only [hread, List.mem_singleton] at h
              subst entry
              exact (lineNumber_of_readLine_error hread).symm
          | ok here =>
              simp only [hread, List.mem_append, List.mem_map] at h
              rcases h with ⟨instruction, hmem, rfl⟩ | hlater
              · exact (lineNumber_of_readLine hread hmem).symm
              · rw [ih hlater, List.length_cons]
                congr 1
                omega

/-!
# Collecting items
-/

theorem mapM_items (commands : List (Instruction Float)) (rest : List StreamItem) :
    (commands.map Except.ok ++ rest).mapM id =
      match rest.mapM id with
      | .ok later => .ok (commands ++ later)
      | .error error => .error error := by
  induction commands with
  | nil => cases hrest : rest.mapM id <;> simp [hrest]
  | cons instruction commands ih =>
      rw [List.map_cons, List.cons_append, List.mapM_cons, ih]
      cases rest.mapM id <;> rfl

/-!
# Streams over bytes
-/

section

variable {skipUnknown : Bool} {bytes : List UInt8}

theorem run_ofBytes_eq :
    (ofBytes skipUnknown bytes).run.1 = itemsOf skipUnknown 0 (Text.byteLines bytes) :=
  run_eq_itemsOf skipUnknown (Text.byteLines bytes) 0

theorem readText_readable :
    readText skipUnknown (Text.readable bytes) =
      readLines skipUnknown 1 (Text.textLines (Text.byteLines bytes)) := by
  rw [readText, Text.lines_readable, readLines_chomp]

theorem items_of_readText {commands : List (Instruction Float)}
    (h : readText skipUnknown (Text.readable bytes) = .ok commands) :
    (ofBytes skipUnknown bytes).items = commands.map .ok ++ ending (Text.byteLines bytes) := by
  rw [readText_readable] at h
  rw [items, run_ofBytes_eq]
  exact itemsOf_of_readLines h

theorem items_of_readText_error {error : SyntaxError}
    (h : readText skipUnknown (Text.readable bytes) = .error error) :
    0 < error.lineNumber ∧ error.lineNumber ≤ (Text.lines (Text.readable bytes)).length ∧
      ∃ commands,
        readLines skipUnknown 1
            ((Text.lines (Text.readable bytes)).take (error.lineNumber - 1)) = .ok commands ∧
          (ofBytes skipUnknown bytes).items =
            commands.map .ok ++ [.error (.malformed error)] := by
  rw [readText_readable] at h
  rcases itemsOf_of_readLines_error h with ⟨hlow, hhigh, commands, hcommands, hitems⟩
  refine ⟨hlow, ?_, commands, ?_, ?_⟩
  · rw [Text.lines_readable, List.length_map]
    omega
  · rw [Text.lines_readable, ← List.map_take, readLines_chomp]
    exact hcommands
  · rw [items, run_ofBytes_eq]
    exact hitems

theorem linesReadAt_of_mem_run {entry : StreamItem × Nat}
    (h : entry ∈ (ofBytes skipUnknown bytes).run.1) :
    entry.2 = linesReadAt (Text.lines (Text.readable bytes)).length entry.1 := by
  rw [run_ofBytes_eq] at h
  rw [Text.lines_readable, List.length_map, linesReadAt_of_mem_itemsOf h, Nat.zero_add]

theorem readBytes_eq :
    readBytes skipUnknown bytes =
      match readText skipUnknown (Text.readable bytes) with
      | .error error => .error (.malformed error)
      | .ok commands =>
          if Text.allText (Text.byteLines bytes) then .ok commands
          else .error (.unreadable .notText) := by
  unfold readBytes
  cases h : readText skipUnknown (Text.readable bytes) with
  | error error =>
      rcases items_of_readText_error h with ⟨_, _, commands, _, hitems⟩
      rw [hitems, mapM_items]
      rfl
  | ok commands =>
      rw [items_of_readText h, mapM_items, ending]
      cases Text.allText (Text.byteLines bytes) with
      | true => exact congrArg Except.ok (List.append_nil commands)
      | false => rfl

end

/-- Reading a stream to its end is reading the text of its lines of text. -/
theorem run_ofBytes (skipUnknown : Bool) (bytes : List UInt8) :
    (∃ front behind, Text.Fronts bytes (Text.readable bytes) front behind) ∧
    (∀ text, Text.decode? bytes = some text →
      Text.readable bytes = text ∧ Text.allText (Text.byteLines bytes) = true) ∧
    (∀ commands, readText skipUnknown (Text.readable bytes) = .ok commands →
      (ofBytes skipUnknown bytes).items = commands.map .ok ++ ending (Text.byteLines bytes)) ∧
    (∀ error, readText skipUnknown (Text.readable bytes) = .error error →
      0 < error.lineNumber ∧ error.lineNumber ≤ (Text.lines (Text.readable bytes)).length ∧
      ∃ commands,
        readLines skipUnknown 1
            ((Text.lines (Text.readable bytes)).take (error.lineNumber - 1)) = .ok commands ∧
          (ofBytes skipUnknown bytes).items =
            commands.map .ok ++ [.error (.malformed error)]) ∧
    (∀ entry ∈ (ofBytes skipUnknown bytes).run.1,
      entry.2 = linesReadAt (Text.lines (Text.readable bytes)).length entry.1) ∧
    (ofBytes skipUnknown bytes).run.2.next = (none, (ofBytes skipUnknown bytes).run.2) ∧
    readBytes skipUnknown bytes =
      match readText skipUnknown (Text.readable bytes) with
      | .error error => .error (.malformed error)
      | .ok commands =>
          if Text.allText (Text.byteLines bytes) then .ok commands
          else .error (.unreadable .notText) := by
  refine ⟨Text.exists_fronts_readable bytes, ?_, ?_, ?_, ?_, next_last _, readBytes_eq⟩
  · intro text h
    exact ⟨Text.readable_of_decode h, Text.allText_of_decode h⟩
  · intro commands h
    exact items_of_readText h
  · intro error h
    exact items_of_readText_error h
  · intro entry h
    exact linesReadAt_of_mem_run h

/-- A line that is not text hides the one behind it. -/
example :
    let bytes := [71, 57, 48, 10, 255, 10, 71, 57, 49, 10]
    let first := (ofBytes false bytes).next
    let second := first.2.next
    Text.readable bytes = "G90\n" ∧
      first.1.map Except.toOption = some (some ⟨1, .setPositioning .absolute⟩) ∧
      second.1.map Except.toOption = some none ∧ second.2.next.1.isNone = true := by
  decide +kernel

end InstructionStream
end Extrusion
