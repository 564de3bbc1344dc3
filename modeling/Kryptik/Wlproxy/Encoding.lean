import Kryptik.Lib.Grammar
import Kryptik.Wlproxy.Session

namespace Kryptik.Wlproxy

open Lib Lib.Grammar Wire Protocol List Arg

namespace Wire

variable {s : String} {bytes rest : Bytes}

lemma zero_mem_utf8EncodeChar {c : Char} (h : 0 ∈ String.utf8EncodeChar c) : c.toNat = 0 := by
  have hz (n : ℕ) (hn : n < 256) (h0 : 0 = UInt8.ofNat n) : n = 0 := by
    have := congrArg UInt8.toNat h0
    simp only [UInt8.toNat_zero, UInt8.toNat_ofNat'] at this
    omega
  rw [String.utf8EncodeChar.eq_1] at h
  split at h
  · exact hz c.val.toNat (by omega) (mem_singleton.mp h)
  split at h
  · simp only [mem_cons, not_mem_nil, or_false] at h
    obtain h | h := h
    all_goals have := hz _ (by omega) h; omega
  split at h
  · simp only [mem_cons, not_mem_nil, or_false] at h
    obtain h | h | h := h
    all_goals have := hz _ (by omega) h; omega
  · simp only [mem_cons, not_mem_nil, or_false] at h
    obtain h | h | h | h := h
    all_goals have := hz _ (by omega) h; omega

lemma utf8_eq (s : String) : utf8 s = s.toList.flatMap String.utf8EncodeChar := by
  rw [utf8, ← String.utf8Encode_toList]
  simp [utf8Encode]

def NulFree (s : String) : Prop := ∀ c ∈ s.toList, c.toNat ≠ 0

lemma nulFree_of_all (h : s.toList.all (fun c => c.toNat != 0) = true) : NulFree s := by
  intro c hc
  simpa using all_eq_true.mp h c hc

lemma NulFree.utf8 (h : NulFree s) : 0 ∉ utf8 s := by
  intro h0
  rw [utf8_eq] at h0
  obtain ⟨c, hc, h0⟩ := mem_flatMap.mp h0
  exact h c hc (zero_mem_utf8EncodeChar h0)

lemma fromUTF8_utf8 (s : String) : String.fromUTF8? ⟨(utf8 s).toArray⟩ = some s := by
  have hb : (⟨(utf8 s).toArray⟩ : ByteArray) = s.toByteArray := by simp [utf8]
  rw [hb, String.fromUTF8?, dif_pos s.isValidUTF8]
  rfl

lemma textOf_utf8 (h : NulFree s) : textOf (utf8 s ++ [0]) = .ok s := by
  simp [textOf, h.utf8, fromUTF8_utf8]

lemma u32_bytes (n : ℕ) : ArgReader.u32 (Words.bytes n ++ rest) = .ok (n % 2 ^ 32, rest) := by
  simp only [Words.bytes, cons_append, nil_append, ArgReader.u32, Words.word_bytes]

lemma take_append {front : Bytes} : ArgReader.take front.length (front ++ rest) = .ok (front, rest) := by
  simp [ArgReader.take]

lemma nulFree_of_utf8 (h : 0 ∉ utf8 s) : NulFree s := by
  intro c hc hzero
  apply h
  rw [utf8_eq]
  refine mem_flatMap.mpr ⟨c, hc, ?_⟩
  have hc0 : c = Char.ofNat 0 := by
    rw [← Char.ofNat_toNat c, hzero]
  rw [hc0]
  decide

lemma textOf_ok_iff : textOf bytes = .ok s ↔ NulFree s ∧ bytes = utf8 s ++ [0] := by
  constructor
  · intro h
    unfold textOf at h
    split_ifs at h with hlast hnul
    have hbytes : bytes = bytes.dropLast ++ [0] := by
      simp only [ne_eq, not_not] at hlast
      obtain ⟨front, rfl⟩ := getLast?_eq_some_iff.mp hlast
      simp
    split at h
    · rename_i t ht
      obtain rfl := Except.ok.inj h
      have hutf8 : bytes.dropLast = utf8 t := by
        unfold String.fromUTF8? at ht
        split_ifs at ht with hv
        rw [← Option.some.inj ht]
        rfl
      rw [hutf8] at hbytes hnul
      exact ⟨nulFree_of_utf8 hnul, hbytes⟩
    · cases h
  · intro ⟨hfree, hbytes⟩
    rw [hbytes]
    exact textOf_utf8 hfree

def Padding (n : ℕ) (bytes : Bytes) : Prop := bytes.length = pad4 n - n

def TextBytes (bytes : Bytes) (s : String) : Prop :=
  NulFree s ∧ (utf8 s).length + 1 < 2 ^ 32 ∧ ∃ padding, Padding ((utf8 s).length + 1) padding ∧
    bytes = Words.bytes ((utf8 s).length + 1) ++ (utf8 s ++ [0] ++ padding)

def ArrayBytes (bytes content : Bytes) : Prop :=
  content.length < 2 ^ 32 ∧ ∃ padding, Padding content.length padding ∧
    bytes = Words.bytes content.length ++ (content ++ padding)

lemma le_pad4 (n : ℕ) : n ≤ pad4 n := by
  unfold pad4
  omega

lemma u32_exact : Exact (fun front n => n < 2 ^ 32 ∧ front = Words.bytes n) ArgReader.u32 := by
  intro input n rest
  constructor
  · intro h
    unfold ArgReader.u32 at h
    split at h
    · cases h
      exact ⟨_, by rw [Words.bytes_word]; rfl, Words.word_lt _ _ _ _, rfl⟩
    · cases h
  · intro ⟨front, hinput, hn, hfront⟩
    rw [hinput, hfront, u32_bytes, Nat.mod_eq_of_lt hn]

lemma take_exact (n : ℕ) : Exact (fun front out => front.length = n ∧ out = front) (ArgReader.take n) := by
  intro input out rest
  constructor
  · intro h
    unfold ArgReader.take at h
    split_ifs at h with hlen
    cases h
    exact ⟨input.take n, (take_append_drop n input).symm, by rw [length_take]; omega, rfl⟩
  · intro ⟨front, hinput, hlen, hout⟩
    rw [hinput, hout, ← hlen, take_append]

lemma take_padded {n : ℕ} {content : Bytes} (hlen : bytes.length = pad4 n) :
    bytes.take n = content ↔ content.length = n ∧ ∃ padding, Padding n padding ∧ bytes = content ++ padding := by
  have hle := le_pad4 n
  constructor
  · intro h
    have hcontent : content.length = n := by
      rw [← h, length_take]
      omega
    refine ⟨hcontent, bytes.drop n, ?_, ?_⟩
    · rw [Padding, length_drop, hlen]
    · rw [← h, take_append_drop]
  · intro ⟨hcontent, padding, _, hbytes⟩
    rw [hbytes, ← hcontent, take_left]

lemma length_padded {n : ℕ} {content padding : Bytes} (hcontent : content.length = n)
    (hpadding : Padding n padding) : (content ++ padding).length = pad4 n := by
  have hle := le_pad4 n
  rw [length_append, hpadding]
  omega

lemma array_exact : Exact ArrayBytes ArgReader.array := by
  refine (u32_exact.bind fun n => (take_exact (pad4 n)).bind fun raw => .ret (raw.take n)).congr ?_
  intro bytes content
  constructor
  · intro ⟨first, second, n, hbytes, ⟨hn, hfirst⟩, third, fourth, raw, hsecond, ⟨hlen, hraw⟩, hfourth, hcontent⟩
    subst hraw hfourth
    obtain ⟨hcontent, padding, hpadding, hsplit⟩ := (take_padded hlen).mp hcontent
    subst hcontent
    rw [append_nil] at hsecond
    exact ⟨hn, padding, hpadding, by rw [hbytes, hfirst, hsecond, hsplit]⟩
  · intro ⟨hn, padding, hpadding, hbytes⟩
    have hlen := length_padded rfl hpadding
    exact ⟨_, content ++ padding, content.length, hbytes, ⟨hn, rfl⟩, content ++ padding, [], content ++ padding,
      by simp, ⟨hlen, rfl⟩, rfl, (take_padded hlen).mpr ⟨rfl, padding, hpadding, rfl⟩⟩

def StringBytes (bytes : Bytes) : Option String → Prop
  | none => bytes = Words.bytes 0
  | some s => TextBytes bytes s

lemma string_exact : Exact StringBytes ArgReader.string := by
  have htext : ∀ n, Exact (fun bytes r => ∃ s, r = some s ∧ NulFree s ∧ (utf8 s).length + 1 = n ∧
      ∃ padding, Padding n padding ∧ bytes = utf8 s ++ [0] ++ padding) (do
        let raw ← ArgReader.take (pad4 n)
        let s ← textOf (raw.take n)
        return some s : ArgReader (Option String)) := by
    intro n
    refine ((take_exact (pad4 n)).bind fun raw => (Exact.lift (textOf (raw.take n))).bind
      fun s => .ret (some s)).congr ?_
    intro bytes r
    constructor
    · intro ⟨first, second, raw, hbytes, ⟨hlen, hraw⟩, third, fourth, s, hsecond, ⟨hthird, hs⟩, hfourth, hr⟩
      subst hraw hthird hfourth hsecond
      obtain ⟨hfree, htake⟩ := textOf_ok_iff.mp hs
      obtain ⟨hcontent, padding, hpadding, hsplit⟩ := (take_padded hlen).mp htake
      exact ⟨s, hr.symm, hfree, by simpa using hcontent, padding, hpadding, by simpa [hbytes] using hsplit⟩
    · intro ⟨s, hr, hfree, hn, padding, hpadding, hbytes⟩
      have hcontent : (utf8 s ++ [0]).length = n := by simpa using hn
      have hlen := length_padded hcontent hpadding
      have htake := (take_padded hlen).mpr ⟨hcontent, padding, hpadding, rfl⟩
      exact ⟨_, [], _, by rw [hbytes, append_nil], ⟨hlen, rfl⟩, [], [], s, rfl,
        ⟨rfl, by rw [htake, textOf_utf8 hfree]⟩, rfl, hr.symm⟩
  refine (u32_exact.bind fun n => (Exact.ret none).ite (htext n)).congr ?_
  intro bytes r
  constructor
  · intro ⟨first, second, n, hbytes, ⟨hn, hfirst⟩, h⟩
    split_ifs at h with hzero
    · obtain ⟨rfl, rfl⟩ := h
      rw [hbytes, hfirst, hzero]
      rfl
    · obtain ⟨s, rfl, hfree, rfl, padding, hpadding, rfl⟩ := h
      exact ⟨hfree, hn, padding, hpadding, by rw [hbytes, hfirst]⟩
  · intro h
    cases r with
    | none => exact ⟨Words.bytes 0, [], 0, by rw [append_nil]; exact h, ⟨by decide, rfl⟩, by simp⟩
    | some s =>
      obtain ⟨hfree, hn, padding, hpadding, hbytes⟩ := h
      refine ⟨_, _, _, hbytes, ⟨hn, rfl⟩, ?_⟩
      exact ⟨s, rfl, hfree, rfl, padding, hpadding, rfl⟩

lemma textBytes_stringBytes {s : String} (h : NulFree s) (hlen : (utf8 s).length + 1 < 2 ^ 32) :
    TextBytes (MessageWriter.stringBytes s) s :=
  ⟨h, hlen, replicate _ 0, length_replicate, by simp only [MessageWriter.stringBytes, append_assoc]⟩

lemma string_stringBytes (h : NulFree s) (hlen : (utf8 s).length + 1 < 2 ^ 32) :
    ArgReader.string (MessageWriter.stringBytes s ++ rest) = .ok (some s, rest) :=
  (string_exact _ _ _).mpr ⟨_, rfl, textBytes_stringBytes h hlen⟩

end Wire

namespace Protocol

def Arg.isNewId : Arg → Bool
  | .newId _ => true
  | _ => false

inductive Value
  | word (n : ℕ)
  | text (s : Option String)
  | array (content : Bytes)
  | bind (name : String) (version id : ℕ)
  | descriptor

def Encodes (a : Arg) (bytes : Bytes) (v : Value) : Prop :=
  match a with
  | .int | .uint | .fixed | .object _ | .newId (some _) => ∃ n < 2 ^ 32, bytes = Words.bytes n ∧ v = .word n
  | .string nullable => ∃ s, StringBytes bytes s ∧ (s = none → nullable = true) ∧ v = .text s
  | .array => ∃ content, ArrayBytes bytes content ∧ v = .array content
  | .newId none => ∃ name version id text, TextBytes text name ∧ version < 2 ^ 32 ∧ id < 2 ^ 32 ∧
      bytes = text ++ Words.bytes version ++ Words.bytes id ∧ v = .bind name version id
  | .fd => bytes = [] ∧ v = .descriptor

inductive EncodesAll : List Arg → Bytes → List Value → Prop
  | nil : EncodesAll [] [] []
  | cons {a : Arg} {v : Value} {args : List Arg} {vs : List Value} {front rest : Bytes} :
      Encodes a front v → EncodesAll args rest vs → EncodesAll (a :: args) (front ++ rest) (v :: vs)

def Value.size : Value → ℕ
  | .word _ => 4
  | .text none => 4
  | .text (some s) => 4 + pad4 ((utf8 s).length + 1)
  | .array content => 4 + pad4 content.length
  | .bind name _ _ => 4 + pad4 ((utf8 name).length + 1) + 8
  | .descriptor => 0

/-- The strings among the values, each with where it starts. -/
def stringsFrom (start : ℕ) : List Value → List (ℕ × String)
  | [] => []
  | .text (some s) :: vs => (start, s) :: stringsFrom (start + (Value.text (some s)).size) vs
  | v :: vs => stringsFrom (start + v.size) vs

def Value.object : Arg × Value → Option (ℕ × String)
  | (.newId (some i), .word id) => some (id, i.name)
  | (.newId none, .bind name _ id) => some (id, name)
  | _ => none

def Value.version : Value → Option ℕ
  | .bind _ version _ => some version
  | _ => none

def told (args : List Arg) (vs : List Value) : Decoded where
  newObject := (args.zip vs).findSome? Value.object
  strings := stringsFrom 0 vs
  bindVersion := vs.findSome? Value.version

variable {a : Arg} {args : List Arg} {v : Value} {vs : List Value} {bytes rest left : Bytes} {d d' : Decoded} {len : ℕ}

lemma TextBytes.length {s : String} (h : TextBytes bytes s) : bytes.length = 4 + pad4 ((utf8 s).length + 1) := by
  obtain ⟨_, _, padding, hpadding, hbytes⟩ := h
  rw [hbytes, length_append, Words.length_bytes, length_padded (by simp) hpadding]

lemma Encodes.length (h : Encodes a bytes v) : bytes.length = v.size := by
  cases a with
  | int | uint | fixed | object _ =>
    obtain ⟨n, -, rfl, rfl⟩ := h
    rfl
  | string nullable =>
    obtain ⟨s, hs, -, rfl⟩ := h
    cases s with
    | none => exact congrArg List.length hs
    | some s => exact TextBytes.length hs
  | array =>
    obtain ⟨content, ⟨-, padding, hpadding, hbytes⟩, rfl⟩ := h
    rw [hbytes, length_append, length_padded rfl hpadding]
    rfl
  | newId iface =>
    cases iface with
    | some i =>
      obtain ⟨n, -, rfl, rfl⟩ := h
      rfl
    | none =>
      obtain ⟨name, version, id, text, htext, -, -, rfl, rfl⟩ := h
      simp [TextBytes.length htext, Value.size]
  | fd =>
    obtain ⟨rfl, rfl⟩ := h
    rfl

def Decoded.add (d : Decoded) (start : ℕ) (a : Arg) (v : Value) : Decoded where
  newObject := (Value.object (a, v)).or d.newObject
  strings := d.strings ++ stringsFrom start [v]
  bindVersion := v.version.or d.bindVersion

lemma created_exact {id : ℕ} {name : String} :
    Exact (fun front d' => front = [] ∧ d.newObject = none ∧ d' = { d with newObject := some (id, name) })
      (liftM (d.created id name) : ArgReader Decoded) := by
  refine (Exact.lift (d.created id name)).congr fun front d' => ?_
  unfold Decoded.created
  cases d.newObject with
  | none => simp [eq_comm]
  | some x => simp

/-- What an argument at `start` adds. -/
def Read (d : Decoded) (start : ℕ) (a : Arg) (front : Bytes) (d' : Decoded) : Prop :=
  ∃ v, Encodes a front v ∧ (a.isNewId = true → d.newObject = none) ∧ d' = d.add start a v

lemma object_word {n : ℕ} (ha : a.isNewId = false) : Value.object (a, .word n) = none := by
  cases a with
  | newId iface => cases ha
  | _ => rfl

lemma word_exact (start : ℕ) (hword : ∀ front v, Encodes a front v ↔
      ∃ n < 2 ^ 32, front = Words.bytes n ∧ v = .word n) (ha : a.isNewId = false) :
    Exact (Read d start a) (do let _ ← ArgReader.u32; return d) := by
  have hadd : ∀ n, d.add start a (.word n) = d := by
    simp [Decoded.add, object_word ha, Value.version, stringsFrom]
  refine (u32_exact.bind fun _ => .ret d).congr fun front d' => ?_
  constructor
  · intro ⟨first, second, n, hfront, ⟨hn, hfirst⟩, hsecond, hd⟩
    refine ⟨.word n, (hword _ _).mpr ⟨n, hn, by simp [hfront, hfirst, hsecond], rfl⟩, by simp [ha], ?_⟩
    rw [hadd, hd]
  · intro ⟨v, hv, _, hd⟩
    obtain ⟨n, hn, hfront, rfl⟩ := (hword _ _).mp hv
    exact ⟨front, [], n, by simp, ⟨hn, hfront⟩, rfl, by rw [hd, hadd]⟩

lemma array_read (start : ℕ) : Exact (Read d start .array) (do let _ ← ArgReader.array; return d) := by
  have hadd : ∀ content, d.add start .array (.array content) = d := by
    simp [Decoded.add, Value.object, Value.version, stringsFrom]
  refine (array_exact.bind fun _ => .ret d).congr fun front d' => ?_
  constructor
  · intro ⟨first, second, content, hfront, hcontent, hsecond, hd⟩
    rw [hsecond, append_nil] at hfront
    exact ⟨.array content, ⟨content, hfront ▸ hcontent, rfl⟩, by simp [isNewId], by rw [hadd, hd]⟩
  · intro ⟨v, ⟨content, hcontent, hv⟩, _, hd⟩
    rw [hv, hadd] at hd
    exact ⟨front, [], content, by simp, hcontent, rfl, hd.symm⟩

lemma string_read (start : ℕ) (nullable : Bool) : Exact (Read d start (.string nullable)) (do
    match ← ArgReader.string with
    | some s => return { d with strings := d.strings ++ [(start, s)] }
    | none => if nullable then return d else throw .nullString) := by
  have hnone : d.add start (.string nullable) (.text none) = d := by
    simp [Decoded.add, Value.object, Value.version, stringsFrom]
  have hsome : ∀ s, d.add start (.string nullable) (.text (some s)) =
      { d with strings := d.strings ++ [(start, s)] } := by
    simp [Decoded.add, Value.object, Value.version, stringsFrom]
  have hrest : ∀ r : Option String, Exact (fun front d' => front = [] ∧ (r = none → nullable = true) ∧
      d' = d.add start (.string nullable) (.text r)) (match r with
        | some s => return { d with strings := d.strings ++ [(start, s)] }
        | none => if nullable then return d else throw .nullString : ArgReader Decoded) := by
    intro r
    cases r with
    | some s => exact (Exact.ret _).congr fun _ _ => by simp [hsome, eq_comm]
    | none =>
      refine ((Exact.ret d).ite (.stop WireError.nullString)).congr fun _ _ => ?_
      cases nullable <;> simp [hnone, eq_comm]
  refine (string_exact.bind hrest).congr fun front d' => ?_
  constructor
  · intro ⟨first, second, r, hfront, hr, hsecond, hnull, hd⟩
    rw [hsecond, append_nil] at hfront
    exact ⟨.text r, ⟨r, hfront ▸ hr, hnull, rfl⟩, by simp [isNewId], hd⟩
  · intro ⟨v, ⟨r, hr, hnull, hv⟩, _, hd⟩
    exact ⟨front, [], r, by simp, hr, rfl, hnull, hv ▸ hd⟩

lemma newId_read (start : ℕ) (i : Interface) : Exact (Read d start (.newId (some i)))
    (do let id ← ArgReader.u32; liftM (d.created id i.name)) := by
  refine (u32_exact.bind fun id => created_exact).congr fun front d' => ?_
  constructor
  · intro ⟨first, second, n, hfront, ⟨hn, hfirst⟩, hsecond, hnone, hd⟩
    refine ⟨.word n, ⟨n, hn, by simp [hfront, hfirst, hsecond], rfl⟩, fun _ => hnone, ?_⟩
    simp [hd, Decoded.add, Value.object, Value.version, stringsFrom]
  · intro ⟨v, ⟨n, hn, hfront, hv⟩, hnone, hd⟩
    refine ⟨front, [], n, by simp, ⟨hn, hfront⟩, rfl, hnone rfl, ?_⟩
    simp [hd, hv, Decoded.add, Value.object, Value.version, stringsFrom]

lemma bind_read (start : ℕ) : Exact (Read d start (.newId none)) (do
    match ← ArgReader.string with
    | none => throw .nullString
    | some name =>
      let version ← ArgReader.u32
      let id ← ArgReader.u32
      liftM ({ d with bindVersion := some version }.created id name)) := by
  have hadd : ∀ name version id, d.add start (.newId none) (.bind name version id) =
      { d with bindVersion := some version, newObject := some (id, name) } := by
    simp [Decoded.add, Value.object, Value.version, stringsFrom]
  have hrest : ∀ r : Option String, Exact (fun front d' => ∃ name version id, r = some name ∧
      version < 2 ^ 32 ∧ id < 2 ^ 32 ∧ front = Words.bytes version ++ Words.bytes id ∧
      d.newObject = none ∧ d' = { d with bindVersion := some version, newObject := some (id, name) })
      (match r with
        | none => throw .nullString
        | some name => do
          let version ← ArgReader.u32
          let id ← ArgReader.u32
          liftM ({ d with bindVersion := some version }.created id name) : ArgReader Decoded) := by
    intro r
    cases r with
    | none => exact (Exact.stop WireError.nullString).congr fun _ _ => by simp
    | some name =>
      refine (u32_exact.bind fun version => u32_exact.bind fun id => created_exact).congr fun front d' => ?_
      constructor
      · intro ⟨first, second, version, hfront, ⟨hversion, hfirst⟩, third, fourth, id, hsecond, ⟨hid, hthird⟩,
          hfourth, hnone, hd⟩
        exact ⟨name, version, id, rfl, hversion, hid, by simp [hfront, hfirst, hsecond, hthird, hfourth], hnone, hd⟩
      · intro ⟨name', version, id, hname, hversion, hid, hfront, hnone, hd⟩
        cases hname
        exact ⟨_, _, version, hfront, ⟨hversion, rfl⟩, _, [], id, by simp, ⟨hid, rfl⟩, rfl, hnone, hd⟩
  refine (string_exact.bind hrest).congr fun front d' => ?_
  constructor
  · intro ⟨first, second, r, hfront, hr, name, version, id, hname, hversion, hid, hsecond, hnone, hd⟩
    subst hname
    refine ⟨.bind name version id, ⟨name, version, id, first, hr, hversion, hid, ?_, rfl⟩, fun _ => hnone, ?_⟩
    · rw [hfront, hsecond, append_assoc]
    · rw [hadd, hd]
  · intro ⟨v, ⟨name, version, id, text, htext, hversion, hid, hfront, hv⟩, hnone, hd⟩
    rw [hv, hadd] at hd
    exact ⟨text, _, some name, by rw [hfront, append_assoc], htext, name, version, id, rfl, hversion, hid,
      rfl, hnone rfl, hd⟩

lemma decodeArg_iff : decodeArg len d a rest = .ok (d', left) ↔
    ∃ front, rest = front ++ left ∧ Read d (len - rest.length) a front d' := by
  cases a with
  | int | uint | fixed | object _ => exact word_exact _ (fun _ _ => Iff.rfl) rfl rest d' left
  | array => exact array_read _ rest d' left
  | string nullable => exact string_read _ nullable rest d' left
  | newId iface =>
    cases iface with
    | some i => exact newId_read _ i rest d' left
    | none => exact bind_read _ rest d' left
  | fd =>
    refine (Exact.ret d).congr (fun front d' => ?_) rest d' left
    constructor
    · intro ⟨hfront, hd⟩
      refine ⟨.descriptor, ⟨hfront, rfl⟩, by simp [isNewId], ?_⟩
      simp [← hd, Decoded.add, Value.object, Value.version, stringsFrom]
    · intro ⟨v, ⟨hfront, hv⟩, _, hd⟩
      refine ⟨hfront, ?_⟩
      simp [hd, hv, Decoded.add, Value.object, Value.version, stringsFrom]

lemma object_none (ha : a.isNewId = false) (h : Encodes a bytes v) :
    Value.object (a, v) = none ∧ v.version = none := by
  cases a with
  | int | uint | fixed | object _ =>
    obtain ⟨n, -, -, rfl⟩ := h
    exact ⟨rfl, rfl⟩
  | string nullable =>
    obtain ⟨s, -, -, rfl⟩ := h
    exact ⟨rfl, rfl⟩
  | array =>
    obtain ⟨content, -, rfl⟩ := h
    exact ⟨rfl, rfl⟩
  | newId iface => cases ha
  | fd =>
    obtain ⟨-, rfl⟩ := h
    exact ⟨rfl, rfl⟩

lemma object_isSome (ha : a.isNewId = true) (h : Encodes a bytes v) : (Value.object (a, v)).isSome := by
  cases a with
  | newId iface =>
    cases iface with
    | some i =>
      obtain ⟨n, -, -, rfl⟩ := h
      rfl
    | none =>
      obtain ⟨name, version, id, text, -, -, -, -, rfl⟩ := h
      rfl
  | _ => cases ha

lemma EncodesAll.none_made (h : EncodesAll args bytes vs) (hargs : args.countP isNewId = 0) :
    (args.zip vs).findSome? Value.object = none ∧ vs.findSome? Value.version = none := by
  induction h with
  | nil => exact ⟨rfl, rfl⟩
  | @cons a v args vs front rest ha _ ih =>
    have hnone := countP_eq_zero.mp hargs
    have hfirst := object_none (by simpa using hnone a mem_cons_self) ha
    have hrest := ih (countP_eq_zero.mpr fun a' ha' => hnone a' (mem_cons_of_mem a ha'))
    simp [hfirst, hrest]

lemma stringsFrom_cons (start : ℕ) (v : Value) (vs : List Value) :
    stringsFrom start (v :: vs) = stringsFrom start [v] ++ stringsFrom (start + v.size) vs := by
  cases v with
  | text s => cases s <;> simp [stringsFrom]
  | _ => simp [stringsFrom]

def Decoded.addAll (d : Decoded) (start : ℕ) (args : List Arg) (vs : List Value) : Decoded where
  newObject := ((args.zip vs).findSome? Value.object).or d.newObject
  strings := d.strings ++ stringsFrom start vs
  bindVersion := (vs.findSome? Value.version).or d.bindVersion

lemma addAll_cons {start : ℕ} {front : Bytes} (ha : Encodes a front v) (h : EncodesAll args bytes vs)
    (hone : (a :: args).countP isNewId ≤ 1) :
    (d.add start a v).addAll (start + v.size) args vs = d.addAll start (a :: args) (v :: vs) := by
  rw [countP_cons] at hone
  unfold Decoded.addAll
  rw [stringsFrom_cons start v vs]
  cases hnew : a.isNewId with
  | true =>
    rw [hnew, if_pos rfl] at hone
    have hrest := h.none_made (by omega)
    obtain ⟨x, hx⟩ := Option.isSome_iff_exists.mp (object_isSome hnew ha)
    simp only [Decoded.add, zip_cons_cons, findSome?_cons, hrest, hx, append_assoc]
    cases v.version <;> simp
  | false =>
    have hfirst := object_none hnew ha
    simp [Decoded.add, hfirst]

lemma addAll_nil (d : Decoded) (start : ℕ) : d.addAll start [] [] = d := by
  simp [Decoded.addAll, stringsFrom]

lemma named_add {start : ℕ} {front : Bytes} (ha : Encodes a front v) (hnew : a.isNewId = true → d.newObject = none) :
    (d.add start a v).newObject.toList.length = (if a.isNewId = true then 1 else 0) + d.newObject.toList.length := by
  cases hid : a.isNewId with
  | true =>
    obtain ⟨x, hx⟩ := Option.isSome_iff_exists.mp (object_isSome hid ha)
    simp [Decoded.add, hx, hnew hid]
  | false => simp [Decoded.add, object_none hid ha]

lemma decodeArgs_iff (hlen : rest.length ≤ len) : decodeArgs len d args rest = .ok (d', left) ↔
    args.countP isNewId + d.newObject.toList.length ≤ 1 ∧
      ∃ front vs, rest = front ++ left ∧ EncodesAll args front vs ∧ d' = d.addAll (len - rest.length) args vs := by
  induction args generalizing d rest with
  | nil =>
    have hnamed : d.newObject.toList.length ≤ 1 := by cases d.newObject <;> simp
    constructor
    · intro h
      obtain ⟨rfl, rfl⟩ := Prod.mk.inj (Except.ok.inj h)
      exact ⟨by rwa [countP_nil, Nat.zero_add], [], [], rfl, .nil, (addAll_nil d _).symm⟩
    · intro ⟨_, front, vs, hrest, hall, hd⟩
      cases hall
      rw [hd, addAll_nil, hrest]
      rfl
  | cons a args ih =>
    have hstep : ∀ front mid v, rest = front ++ mid → Encodes a front v →
        mid.length ≤ len ∧ len - mid.length = len - rest.length + v.size := by
      intro front mid v hrest hv
      have hlength := congrArg List.length hrest
      rw [length_append, hv.length] at hlength
      omega
    rw [decodeArgs, bind_ok, countP_cons]
    constructor
    · intro ⟨d1, mid, hfirst, hmore⟩
      obtain ⟨front, hrest, v, hv, hnew, rfl⟩ := decodeArg_iff.mp hfirst
      obtain ⟨hmid, hat⟩ := hstep front mid v hrest hv
      obtain ⟨hone, back, vs, rfl, hall, hd⟩ := (ih hmid).mp hmore
      rw [named_add hv hnew] at hone
      refine ⟨by omega, front ++ back, v :: vs, by rw [hrest, append_assoc], .cons hv hall, ?_⟩
      rw [hd, hat, addAll_cons hv hall (by rw [countP_cons]; omega)]
    · intro ⟨hone, front, vs, hrest, hall, hd⟩
      cases hall with
      | @cons _ v _ vs front back hv hall =>
        rw [append_assoc] at hrest
        obtain ⟨hmid, hat⟩ := hstep front (back ++ left) v hrest hv
        have hnew : a.isNewId = true → d.newObject = none := by
          intro hid
          rw [hid, if_pos rfl] at hone
          cases hd : d.newObject with
          | none => rfl
          | some x =>
            rw [hd] at hone
            simp only [Option.toList_some, length_singleton] at hone
            omega
        refine ⟨_, back ++ left, decodeArg_iff.mpr ⟨front, hrest, v, hv, hnew, rfl⟩, (ih hmid).mpr ?_⟩
        refine ⟨by rw [named_add hv hnew]; omega, back, vs, rfl, hall, ?_⟩
        rw [hd, hat, addAll_cons hv hall (by rw [countP_cons]; omega)]

lemma decode_ok {m : Message} {body : Bytes} (h : decode m body = .ok d) :
    decodeArgs body.length {} m.args body = .ok (d, []) := by
  unfold decode at h
  split at h
  · cases h
    assumption
  · cases h
  · cases h

lemma decode_iff {m : Message} {body : Bytes} : decode m body = .ok d ↔
    m.args.countP isNewId ≤ 1 ∧ ∃ vs, EncodesAll m.args body vs ∧ d = told m.args vs := by
  have htold : ∀ vs, ({} : Decoded).addAll 0 m.args vs = told m.args vs := by
    simp [Decoded.addAll, told]
  have hargs : decodeArgs body.length {} m.args body = .ok (d, []) ↔ m.args.countP isNewId ≤ 1 ∧
      ∃ vs, EncodesAll m.args body vs ∧ d = told m.args vs := by
    rw [decodeArgs_iff (Nat.le_refl _), Nat.sub_self]
    simp only [Option.toList_none, length_nil, Nat.add_zero, append_nil, htold]
    exact and_congr_right fun _ =>
      ⟨fun ⟨front, vs, hbody, h⟩ => ⟨vs, hbody ▸ h⟩, fun ⟨vs, h⟩ => ⟨body, vs, rfl, h⟩⟩
  rw [← hargs]
  refine ⟨decode_ok, fun h => ?_⟩
  rw [decode, h]

end Protocol

namespace Wire

inductive Item
  | word (n : UInt32)
  | text (s : String)

def Item.bytes : Item → Bytes
  | .word n => Words.bytes n.toNat
  | .text s => MessageWriter.stringBytes s

def MessageWriter.push (w : MessageWriter) : Item → MessageWriter
  | .word n => w.u32 n.toNat
  | .text s => w.string s

lemma push_all (items : List Item) (w : MessageWriter) :
    (items.foldl MessageWriter.push w).object = w.object ∧ (items.foldl MessageWriter.push w).opcode = w.opcode ∧
      (items.foldl MessageWriter.push w).body = w.body ++ items.flatMap Item.bytes := by
  induction items generalizing w with
  | nil => simp
  | cons item items ih =>
    obtain ⟨hobject, hopcode, hbody⟩ := ih (w.push item)
    rw [foldl_cons, hobject, hopcode, hbody]
    cases item <;> simp [MessageWriter.push, MessageWriter.u32, MessageWriter.string, Item.bytes]

end Wire

namespace Protocol

/-- The items written for the arguments of a signature, and the values they carry. -/
inductive Fits : List Arg → List Item → List Value → Prop
  | nil : Fits [] [] []
  | word {a : Arg} {n : UInt32} {args : List Arg} {items : List Item} {vs : List Value} :
      a = .int ∨ a = .uint ∨ a = .fixed ∨ (∃ nullable, a = .object nullable) ∨ (∃ i, a = .newId (some i)) →
      Fits args items vs → Fits (a :: args) (.word n :: items) (.word n.toNat :: vs)
  | text {nullable : Bool} {s : String} {args : List Arg} {items : List Item} {vs : List Value} :
      Fits args items vs → Fits (.string nullable :: args) (.text s :: items) (.text (some s) :: vs)
  | bind {name : String} {version id : UInt32} {args : List Arg} {items : List Item} {vs : List Value} :
      Fits args items vs → Fits (.newId none :: args) (.text name :: .word version :: .word id :: items)
        (.bind name version.toNat id.toNat :: vs)
  | fd {args : List Arg} {items : List Item} {vs : List Value} :
      Fits args items vs → Fits (.fd :: args) items (.descriptor :: vs)

variable {args : List Arg} {items : List Item} {vs : List Value}

lemma Fits.encodes (h : Fits args items vs)
    (hfree : ∀ s, Item.text s ∈ items → NulFree s ∧ (utf8 s).length + 1 < 2 ^ 32) :
    EncodesAll args (items.flatMap Item.bytes) vs := by
  induction h with
  | nil => exact .nil
  | @word a n args items vs ha _ ih =>
    refine .cons ?_ (ih fun s hs => hfree s (mem_cons_of_mem _ hs))
    have hword : ∃ k < 2 ^ 32, Words.bytes n.toNat = Words.bytes k ∧ Value.word n.toNat = .word k :=
      ⟨n.toNat, n.toNat_lt, rfl, rfl⟩
    obtain rfl | rfl | rfl | ⟨nullable, rfl⟩ | ⟨i, rfl⟩ := ha
    all_goals exact hword
  | @text nullable s args items vs _ ih =>
    obtain ⟨hs, hlen⟩ := hfree s mem_cons_self
    refine .cons ⟨some s, textBytes_stringBytes hs hlen, nofun, rfl⟩ ?_
    exact ih fun s hs => hfree s (mem_cons_of_mem _ hs)
  | @bind name version id args items vs _ ih =>
    simp only [flatMap_cons, ← append_assoc]
    obtain ⟨hs, hlen⟩ := hfree name mem_cons_self
    refine .cons ⟨name, _, _, _, textBytes_stringBytes hs hlen, version.toNat_lt, id.toNat_lt, rfl, rfl⟩ ?_
    exact ih fun s hs => hfree s (mem_cons_of_mem _ (mem_cons_of_mem _ (mem_cons_of_mem _ hs)))
  | fd _ ih =>
    have hfd : Encodes .fd [] .descriptor := ⟨rfl, rfl⟩
    exact .cons hfd (ih hfree)

lemma length_item_le {item : Item} (h : item ∈ items) : item.bytes.length ≤ (items.flatMap Item.bytes).length := by
  obtain ⟨before, later, rfl⟩ := append_of_mem h
  simp only [flatMap_append, flatMap_cons, length_append]
  omega

lemma text_short {s : String} {w : MessageWriter} {msg : Bytes} (h : w.finish = some msg)
    (hbody : w.body = items.flatMap Item.bytes) (hs : Item.text s ∈ items) : (utf8 s).length + 1 < 2 ^ 32 := by
  have hitem : (MessageWriter.stringBytes s).length ≤ w.body.length := hbody ▸ length_item_le hs
  have hpad := le_pad4 ((utf8 s).length + 1)
  rw [MessageWriter.length_stringBytes] at hitem
  unfold MessageWriter.finish maxMessageLen at h
  split_ifs at h with hlong
  omega

theorem wire_exact : (∀ (m : Message) (body : Bytes) (d : Decoded), decode m body = .ok d ↔ m.args.countP isNewId ≤ 1 ∧
      ∃ vs, EncodesAll m.args body vs ∧ d = told m.args vs) ∧
    ∀ (object : UInt32) (opcode : UInt16) (items : List Item) (msg : Bytes), (∀ s, Item.text s ∈ items → NulFree s) →
      (items.foldl MessageWriter.push (.new object.toNat opcode.toNat)).finish = some msg →
      ∃ hd, Header.parse msg = .ok hd ∧ hd.object = object.toNat ∧ hd.opcode = opcode.toNat ∧
        hd.size = msg.length ∧ ∀ (m : Message) (vs : List Value), m.args.countP isNewId ≤ 1 →
          Fits m.args items vs → decode m (msg.drop headerLen) = .ok (told m.args vs) := by
  refine ⟨fun m body d => decode_iff, fun object opcode items msg hfree hmsg => ?_⟩
  obtain ⟨hobject, hopcode, hbody⟩ := push_all items (.new object.toNat opcode.toNat)
  have hlt : (items.foldl MessageWriter.push (.new object.toNat opcode.toNat)).opcode < 2 ^ 16 :=
    hopcode ▸ opcode.toNat_lt
  obtain ⟨hd, hparse, hobject', hopcode', hsize, hdrop⟩ := MessageWriter.parse_finish hmsg hlt
  refine ⟨hd, hparse, ?_, hopcode'.trans hopcode, hsize, fun m vs hone hfits => ?_⟩
  · rw [hobject', hobject]
    exact Nat.mod_eq_of_lt object.toNat_lt
  · refine decode_iff.mpr ⟨hone, vs, ?_, rfl⟩
    rw [hdrop, hbody]
    exact hfits.encodes fun s hs => ⟨hfree s hs, text_short hmsg hbody hs⟩

/-- A bind of version 4 of `wl_shm` as object 9, written and read. -/
theorem wire_exact_bind :
    ∃ msg, ([Item.word 3, .text "wl_shm", .word 4, .word 9].foldl MessageWriter.push (.new 2 0)).finish = some msg ∧
      decode ⟨"bind", [.uint, .newId none], 0, 1⟩ (msg.drop headerLen) =
        .ok { newObject := some (9, "wl_shm"), bindVersion := some 4 } := by
  have hfree : ∀ s, Item.text s ∈ [Item.word 3, .text "wl_shm", .word 4, .word 9] → NulFree s := by
    intro s hs
    obtain rfl : s = "wl_shm" := by simpa using hs
    exact nulFree_of_all (by decide)
  refine ⟨_, rfl, ?_⟩
  obtain ⟨hd, -, -, -, -, hdecode⟩ := wire_exact.2 2 0 _ _ hfree rfl
  exact hdecode ⟨"bind", [.uint, .newId none], 0, 1⟩ [.word 3, .bind "wl_shm" 4 9] (by decide)
    (.word (.inr (.inl rfl)) (.bind .nil))

end Protocol

end Kryptik.Wlproxy
