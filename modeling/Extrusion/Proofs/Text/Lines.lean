import Extrusion.Text.Lines
import Mathlib.Data.List.Basic
import Mathlib.Data.List.TakeWhile

/-!
# Cutting lines

Cutting at a stop gives back exactly the lines that were put together, as long
as each of them ends with its only stop, the last one excepted.  A line feed is
one byte that no other character uses, so bytes and the text they encode have
the same lines.
-/

namespace Extrusion
namespace Text

section

variable {β : Type} {stop : β}

/-- Lines with a stop at their end only; the last one may lack it. -/
inductive Chunked (stop : β) : List (List β) → Prop where
  | nil : Chunked stop []
  | last {body : List β} (hne : body ≠ []) (hbody : stop ∉ body) : Chunked stop [body]
  | cons {body : List β} {rest : List (List β)} (hbody : stop ∉ body)
      (hrest : Chunked stop rest) : Chunked stop ((body ++ [stop]) :: rest)

variable [DecidableEq β]

theorem chunks_append_stop {body : List β} (hbody : stop ∉ body) (rest : List β) :
    chunks stop (body ++ stop :: rest) = (body ++ [stop]) :: chunks stop rest := by
  induction body with
  | nil => simp [chunks]
  | cons b bs ih =>
      have hb : b ≠ stop := fun heq => hbody (heq ▸ List.mem_cons_self)
      have hbs : stop ∉ bs := fun hmem => hbody (List.mem_cons_of_mem b hmem)
      rw [List.cons_append, chunks, if_neg hb, ih hbs]
      rfl

theorem chunks_of_not_mem {body : List β} (hne : body ≠ []) (hbody : stop ∉ body) :
    chunks stop body = [body] := by
  induction body with
  | nil => exact absurd rfl hne
  | cons b bs ih =>
      have hb : b ≠ stop := fun heq => hbody (heq ▸ List.mem_cons_self)
      have hbs : stop ∉ bs := fun hmem => hbody (List.mem_cons_of_mem b hmem)
      rw [chunks, if_neg hb]
      cases bs with
      | nil => rfl
      | cons c cs =>
          rw [ih (by simp) hbs]
          rfl

theorem chunks_flatten {lines : List (List β)} (h : Chunked stop lines) :
    chunks stop lines.flatten = lines := by
  induction h with
  | nil => rfl
  | last hne hbody =>
      rw [List.flatten_singleton]
      exact chunks_of_not_mem hne hbody
  | cons hbody hrest ih =>
      rw [List.flatten_cons, List.append_assoc, List.singleton_append,
        chunks_append_stop hbody, ih]

theorem chunked_chunks (bs : List β) : Chunked stop (chunks stop bs) := by
  induction bs with
  | nil => exact .nil
  | cons b bs ih =>
      rw [chunks]
      by_cases hb : b = stop
      · have hempty : Chunked stop (([] ++ [stop]) :: chunks stop bs) := .cons (by simp) ih
        rw [if_pos hb, hb]
        exact hempty
      · rw [if_neg hb]
        have hcons : ∀ body : List β, stop ∉ body → stop ∉ b :: body := by
          intro body hbody hmem
          rcases List.mem_cons.mp hmem with heq | htail
          · exact hb heq.symm
          · exact hbody htail
        generalize chunks stop bs = lines at ih ⊢
        cases ih with
        | nil => exact .last (by simp) (hcons [] (by simp))
        | last hne hbody => exact .last (by simp) (hcons _ hbody)
        | cons hbody hrest => exact .cons (hcons _ hbody) hrest

end

/-!
# Bytes of a line
-/

theorem ne_or_of_lt {a mask : UInt8} (h : a < mask) (b : UInt8) : a ≠ b ||| mask := by
  intro heq
  have hnat : a.toNat = b.toNat ||| mask.toNat := by
    rw [heq, UInt8.toNat_or]
  have hle : mask.toNat ≤ b.toNat ||| mask.toNat := Nat.right_le_or
  have hlt : a.toNat < mask.toNat := h
  omega

/-- The byte of a line feed is in the encoding of no other character. -/
theorem eq_newline_of_mem {c : Char} (h : (10 : UInt8) ∈ String.utf8EncodeChar c) : c = '\n' := by
  rcases c.utf8Size_eq with hsize | hsize | hsize | hsize
  · rw [String.utf8EncodeChar_eq_singleton hsize, List.mem_singleton] at h
    have hle : c.val.toNat ≤ 127 := Char.utf8Size_eq_one_iff.mp hsize
    have hnat : 10 = c.val.toNat % 256 := congrArg UInt8.toNat h
    have hval : c.val.toNat = 10 := by omega
    exact Char.ext (UInt32.toNat_inj.mp hval)
  · rw [String.utf8EncodeChar_eq_cons_cons hsize] at h
    simp [ne_or_of_lt] at h
  · rw [String.utf8EncodeChar_eq_cons_cons_cons hsize] at h
    simp [ne_or_of_lt] at h
  · rw [String.utf8EncodeChar_eq_cons_cons_cons_cons hsize] at h
    simp [ne_or_of_lt] at h

theorem bytes_of_decode {bytes : List UInt8} {text : String} (h : decode? bytes = some text) :
    bytes = text.toList.flatMap String.utf8EncodeChar := by
  have hbytes : text.toByteArray = ⟨bytes.toArray⟩ := by
    unfold decode? String.fromUTF8? at h
    split at h
    · cases h
      rfl
    · cases h
  have hlist : bytes = text.toByteArray.data.toList := by rw [hbytes]
  rw [hlist, ← String.utf8Encode_toList, List.utf8Encode, List.data_toByteArray]

theorem newline_not_mem_of_decode {bytes : List UInt8} {text : String}
    (h : decode? bytes = some text) (hbytes : (10 : UInt8) ∉ bytes) : '\n' ∉ text.toList := by
  intro hmem
  rw [bytes_of_decode h] at hbytes
  exact hbytes (List.mem_flatMap.mpr ⟨'\n', hmem, by decide⟩)

theorem toList_ne_nil_of_decode {bytes : List UInt8} {text : String}
    (h : decode? bytes = some text) (hbytes : bytes ≠ []) : text.toList ≠ [] := by
  intro hnil
  rw [bytes_of_decode h, hnil] at hbytes
  exact hbytes rfl

theorem toList_of_decode_concat {body : List UInt8} {text : String}
    (h : decode? (body ++ [10]) = some text) (hbody : (10 : UInt8) ∉ body) :
    ∃ front, text.toList = front ++ ['\n'] ∧ '\n' ∉ front := by
  have hbytes := bytes_of_decode h
  have hne := toList_ne_nil_of_decode h (by simp)
  rcases List.eq_nil_or_concat text.toList with hnil | ⟨front, c, hfront⟩
  · exact absurd hnil hne
  · rw [hfront, List.concat_eq_append, List.flatMap_append, List.flatMap_singleton] at hbytes
    -- The last byte is one of the last character.
    have hlast := congrArg List.getLast? hbytes
    rw [List.getLast?_concat, List.getLast?_append_of_ne_nil _ String.utf8EncodeChar_ne_nil]
      at hlast
    have hc : c = '\n' := eq_newline_of_mem (List.mem_of_getLast? hlast.symm)
    subst c
    have hrest : body = front.flatMap String.utf8EncodeChar := List.append_cancel_right hbytes
    refine ⟨front, by rw [hfront, List.concat_eq_append], ?_⟩
    intro hmem
    rw [hrest] at hbody
    exact hbody (List.mem_flatMap.mpr ⟨'\n', hmem, by decide⟩)

/-!
# Lines of text
-/

def textLines : List (List UInt8) → List String
  | [] => []
  | bytes :: lines =>
      match decode? bytes with
      | some line => line :: textLines lines
      | none => []

def allText (lines : List (List UInt8)) : Bool :=
  lines.all fun bytes => (decode? bytes).isSome

/-- The text of some bytes up to the first line that is not text. -/
def readable (bytes : List UInt8) : String :=
  String.join (textLines (byteLines bytes))

theorem chunked_textLines {lines : List (List UInt8)} (h : Chunked 10 lines) :
    Chunked '\n' ((textLines lines).map String.toList) := by
  induction h with
  | nil => exact .nil
  | @last body hne hbody =>
      rw [textLines]
      cases hdecode : decode? body with
      | none => exact .nil
      | some text =>
          exact .last (toList_ne_nil_of_decode hdecode hne)
            (newline_not_mem_of_decode hdecode hbody)
  | @cons body rest hbody hrest ih =>
      rw [textLines]
      cases hdecode : decode? (body ++ [10]) with
      | none => exact .nil
      | some text =>
          rcases toList_of_decode_concat hdecode hbody with ⟨front, htext, hfront⟩
          simp only [List.map_cons, htext]
          exact .cons hfront ih

/-- Cutting the text gives the lines that were cut off as bytes. -/
theorem lines_readable (bytes : List UInt8) :
    lines (readable bytes) =
      (textLines (byteLines bytes)).map fun line => String.ofList (chomp line.toList) := by
  have hchunked : Chunked '\n' ((textLines (byteLines bytes)).map String.toList) :=
    chunked_textLines (chunked_chunks bytes)
  have htext : (readable bytes).toList =
      ((textLines (byteLines bytes)).map String.toList).flatten := by
    simp [readable, String.toList_join, List.flatMap_def]
  rw [lines, htext, chunks_flatten hchunked, List.map_map]
  rfl

/-!
# Bytes that are text
-/

theorem flatten_consFirst {β : Type} (b : β) (lines : List (List β)) :
    (consFirst b lines).flatten = b :: lines.flatten := by
  cases lines <;> rfl

theorem flatten_chunks {β : Type} [DecidableEq β] (stop : β) (bs : List β) :
    (chunks stop bs).flatten = bs := by
  induction bs with
  | nil => rfl
  | cons b bs ih =>
      rw [chunks]
      by_cases hb : b = stop
      · rw [if_pos hb, hb, List.flatten_cons, ih]
        rfl
      · rw [if_neg hb, flatten_consFirst, ih]

theorem chunks_append_of_not_mem {β : Type} [DecidableEq β] {stop : β} {body : List β}
    (hne : body ≠ []) (hbody : stop ∉ body) (rest : List β) :
    chunks stop (body ++ rest) =
      match chunks stop rest with
      | [] => [body]
      | line :: lines => (body ++ line) :: lines := by
  induction body with
  | nil => exact absurd rfl hne
  | cons b bs ih =>
      have hb : b ≠ stop := fun heq => hbody (heq ▸ List.mem_cons_self)
      have hbs : stop ∉ bs := fun hmem => hbody (List.mem_cons_of_mem b hmem)
      rw [List.cons_append, chunks, if_neg hb]
      cases bs with
      | nil =>
          rw [List.nil_append]
          cases chunks stop rest <;> rfl
      | cons c cs =>
          rw [ih (List.cons_ne_nil c cs) hbs]
          cases chunks stop rest <;> rfl

theorem decode?_encoded (cs : List Char) :
    decode? (cs.flatMap String.utf8EncodeChar) = some (String.ofList cs) := by
  have hbytes : (⟨(cs.flatMap String.utf8EncodeChar).toArray⟩ : ByteArray) =
      (String.ofList cs).toByteArray := by
    rw [String.toByteArray_ofList]
    apply ByteArray.ext
    exact (List.data_toByteArray).symm
  unfold decode? String.fromUTF8?
  rw [hbytes]
  exact dif_pos (String.ofList cs).isValidUTF8

theorem byteLines_encoded (cs : List Char) :
    byteLines (cs.flatMap String.utf8EncodeChar) =
      (chunks '\n' cs).map fun line => line.flatMap String.utf8EncodeChar := by
  unfold byteLines
  induction cs with
  | nil => rfl
  | cons c cs ih =>
      rw [List.flatMap_cons, chunks]
      by_cases hc : c = '\n'
      · subst c
        have hencode : String.utf8EncodeChar '\n' = [10] := by decide
        rw [if_pos rfl, hencode, List.singleton_append, chunks, if_pos rfl, ih, List.map_cons]
        rfl
      · have hnewline : (10 : UInt8) ∉ String.utf8EncodeChar c := fun h => hc (eq_newline_of_mem h)
        rw [if_neg hc, chunks_append_of_not_mem String.utf8EncodeChar_ne_nil hnewline, ih]
        cases chunks '\n' cs <;> simp [consFirst]

theorem textLines_encoded (lines : List (List Char)) :
    textLines (lines.map fun line => line.flatMap String.utf8EncodeChar) =
      lines.map String.ofList := by
  induction lines with
  | nil => rfl
  | cons line lines ih =>
      rw [List.map_cons, textLines, decode?_encoded]
      exact congrArg (String.ofList line :: ·) ih

/-!
# What is readable
-/

theorem decode?_append {front back : List UInt8} {text later : String}
    (hfront : decode? front = some text) (hback : decode? back = some later) :
    decode? (front ++ back) = some (text ++ later) := by
  rw [bytes_of_decode hfront, bytes_of_decode hback, ← List.flatMap_append, decode?_encoded,
    ← String.toList_append, String.ofList_toList]

/-- The lines of some bytes are the ones of a text, and behind them there is nothing or a
line that is not text. -/
structure Fronts (bytes : List UInt8) (text : String) (front behind : List (List UInt8)) :
    Prop where
  bytes_eq : bytes = front.flatten ++ behind.flatten
  lines : byteLines bytes = front ++ behind
  decodes : decode? front.flatten = some text
  stops : ∀ line ∈ behind.head?, decode? line = none
  complete : behind = [] ↔ allText (byteLines bytes) = true

def isText (bytes : List UInt8) : Bool :=
  (decode? bytes).isSome

theorem decode?_takeWhile_isText (lines : List (List UInt8)) :
    decode? (lines.takeWhile isText).flatten = some (String.join (textLines lines)) := by
  induction lines with
  | nil => exact decode?_encoded []
  | cons bytes lines ih =>
      rw [textLines]
      cases hdecode : decode? bytes with
      | none =>
          have hnot : ¬ isText bytes = true := by simp [isText, hdecode]
          rw [List.takeWhile_cons_of_neg hnot]
          exact decode?_encoded []
      | some text =>
          have htext : isText bytes = true := by simp [isText, hdecode]
          rw [List.takeWhile_cons_of_pos htext, List.flatten_cons, decode?_append hdecode ih,
            String.join_cons]

/-- What is readable is the text of a front of the bytes. -/
theorem exists_fronts_readable (bytes : List UInt8) :
    ∃ front behind, Fronts bytes (readable bytes) front behind := by
  have hlines : (byteLines bytes).takeWhile isText ++ (byteLines bytes).dropWhile isText =
      byteLines bytes := List.takeWhile_append_dropWhile
  refine ⟨_, _, ?_, hlines.symm, decode?_takeWhile_isText _, ?_, ?_⟩
  · rw [← List.flatten_append, hlines]
    exact (flatten_chunks 10 bytes).symm
  · intro line hline
    rw [← List.find?_not_eq_head?_dropWhile] at hline
    simpa [isText] using List.find?_some hline
  · rw [List.dropWhile_eq_nil_iff]
    exact List.all_eq_true.symm

section

variable {bytes : List UInt8} {text : String}

theorem readable_of_decode (h : decode? bytes = some text) : readable bytes = text := by
  rw [bytes_of_decode h, readable, byteLines_encoded, textLines_encoded]
  apply String.toList_inj.mp
  rw [String.toList_join, List.flatMap_map]
  simp only [String.toList_ofList]
  rw [List.flatMap_id', flatten_chunks]

theorem allText_of_decode (h : decode? bytes = some text) : allText (byteLines bytes) = true := by
  rw [bytes_of_decode h, byteLines_encoded, allText, List.all_eq_true]
  intro line hline
  rcases List.mem_map.mp hline with ⟨chars, _, rfl⟩
  rw [decode?_encoded]
  rfl

end

end Text
end Extrusion
