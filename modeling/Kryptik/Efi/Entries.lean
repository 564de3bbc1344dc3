import Kryptik.Efi.Efiboot

namespace Kryptik.Efi

open Lib Lib.Text List Option Directory Words

variable {file text : List Char} {sig option : List UInt8} {esp : Part}
variable {s : Store} {io : Io} {name v : List Char} {n : ℕ}

lemma upperHex_digit : ∀ n < 16, isAsciiHexdigit (upperHex n) = true ∧ hexValue (upperHex n) = n := by decide

lemma upperHex_hexValue {c : Char} (hhex : isAsciiHexdigit c = true) (hupper : isAsciiLowercase c = false) :
    upperHex (hexValue c) = c ∧ hexValue c < 16 := by
  have hle : c.toNat < 103 := by
    simp only [isAsciiHexdigit, isAsciiDigit, Bool.or_eq_true, Bool.and_eq_true, decide_eq_true_eq] at hhex
    obtain (⟨-, h⟩ | ⟨-, h⟩) | ⟨-, h⟩ := hhex
    · exact Nat.lt_of_le_of_lt h (by decide)
    · exact Nat.lt_of_le_of_lt h (by decide)
    · exact Nat.lt_of_le_of_lt h (by decide)
  have hall : ∀ k < 103, isAsciiHexdigit (Char.ofNat k) = true → isAsciiLowercase (Char.ofNat k) = false →
      upperHex (hexValue (Char.ofNat k)) = Char.ofNat k ∧ hexValue (Char.ofNat k) < 16 := by decide
  have hc := hall c.toNat hle
  rw [Char.ofNat_toNat] at hc
  exact hc hhex hupper

lemma number_bootName (hn : n < 65536) : number (bootName n) = n := by
  have hlt : ∀ k, k % 16 < 16 := fun k => Nat.mod_lt k (by decide)
  have h1 := upperHex_digit _ (hlt (n / 4096))
  have h2 := upperHex_digit _ (hlt (n / 256))
  have h3 := upperHex_digit _ (hlt (n / 16))
  have h4 := upperHex_digit _ (hlt n)
  have hdrop : (bootName n).drop 4 =
      [upperHex (n / 4096 % 16), upperHex (n / 256 % 16), upperHex (n / 16 % 16), upperHex (n % 16)] := rfl
  simp only [number, hdrop, takeWhile_cons, h1.1, h2.1, h3.1, h4.1, if_true, takeWhile_nil, numeral,
    foldl_cons, foldl_nil, h1.2, h2.2, h3.2, h4.2]
  omega

lemma number_lt (v : List Char) : number v < 65536 := Nat.mod_lt _ (by decide)

lemma path_inj {a b : List Char} : path a = path b ↔ a = b := append_left_inj globalGuid

lemma bootVar_path (n : ℕ) : bootVar (path (bootName n)) = some (bootName n) := by
  have hlt : ∀ k, k % 16 < 16 := fun k => Nat.mod_lt k (by decide)
  have hhex : (((path (bootName n)).drop 4).take 4).all isAsciiHexdigit = true := by
    have htake : ((path (bootName n)).drop 4).take 4 =
        [upperHex (n / 4096 % 16), upperHex (n / 256 % 16), upperHex (n / 16 % 16), upperHex (n % 16)] := rfl
    simp [htake, (upperHex_digit _ (hlt _)).1]
  exact if_pos ⟨rfl, rfl, rfl, hhex⟩

lemma bootVar_eq_some (h : bootVar file = some v) :
    file = path v ∧ ∃ a b c d, v = "Boot".toList ++ [a, b, c, d] ∧ [a, b, c, d].all isAsciiHexdigit = true := by
  unfold bootVar at h
  split_ifs at h with hfile
  obtain ⟨hlen, hboot, hguid, hhex⟩ := hfile
  cases h
  have hsplit := take_append_drop 8 file
  refine ⟨by rw [path, ← hguid, hsplit], ?_⟩
  obtain ⟨a, b, c, d, hdigits⟩ : ∃ a b c d, (file.drop 4).take 4 = [a, b, c, d] := by
    have hfour : ((file.drop 4).take 4).length = 4 := by
      rw [length_take, length_drop, hlen]
      rfl
    match (file.drop 4).take 4, hfour with
    | [a, b, c, d], _ => exact ⟨a, b, c, d, rfl⟩
  refine ⟨a, b, c, d, ?_, hdigits ▸ hhex⟩
  rw [← hdigits, ← hboot, ← take_add]

lemma bootName_number (h : bootVar file = some v) (hupper : ∀ c ∈ v.drop 4, isAsciiLowercase c = false) :
    bootName (number v) = v := by
  obtain ⟨-, a, b, c, d, rfl, hhex⟩ := bootVar_eq_some h
  simp only [all_cons, all_nil, Bool.and_true, Bool.and_eq_true] at hhex
  obtain ⟨ha, hb, hc, hd⟩ := hhex
  have hdrop : ("Boot".toList ++ [a, b, c, d]).drop 4 = [a, b, c, d] := rfl
  obtain ⟨hau, ha16⟩ := upperHex_hexValue ha (hupper a (by simp))
  obtain ⟨hbu, hb16⟩ := upperHex_hexValue hb (hupper b (by simp))
  obtain ⟨hcu, hc16⟩ := upperHex_hexValue hc (hupper c (by simp))
  obtain ⟨hdu, hd16⟩ := upperHex_hexValue hd (hupper d (by simp))
  have hnum : number ("Boot".toList ++ [a, b, c, d]) =
      4096 * hexValue a + 256 * hexValue b + 16 * hexValue c + hexValue d := by
    simp only [number, hdrop, takeWhile_cons, ha, hb, hc, hd, if_true, takeWhile_nil, numeral, foldl_cons, foldl_nil]
    omega
  have h1 : number ("Boot".toList ++ [a, b, c, d]) / 4096 % 16 = hexValue a := by omega
  have h2 : number ("Boot".toList ++ [a, b, c, d]) / 256 % 16 = hexValue b := by omega
  have h3 : number ("Boot".toList ++ [a, b, c, d]) / 16 % 16 = hexValue c := by omega
  have h4 : number ("Boot".toList ++ [a, b, c, d]) % 16 = hexValue d := by omega
  rw [bootName, h1, h2, h3, h4, hau, hbu, hcu, hdu]

namespace Store

variable {data : List UInt8}

lemma var_write (h : data ≠ []) (name' : List Char) :
    (s.write io name data).var name' = if name' = name then some ⟨attr, data, h⟩ else s.var name' := by
  simp [var, write, dif_neg h, get_put, path_inj]

lemma file_write (h : data ≠ []) {file : List Char} (hfile : file ≠ path name) :
    Directory.get (s.write io name data).files file = Directory.get s.files file := by
  simp [write, dif_neg h, get_put, if_neg hfile]

lemma file_delete (s : Store) (name file : List Char) :
    Directory.get (s.delete name).files file = if file = path name then none else Directory.get s.files file :=
  get_remove (path name) s.files file

lemma varExists_iff : s.varExists name ↔ path name ∈ Directory.names s.files := get_isSome

lemma mem_bootNames (h : s.varExists (bootName n)) : bootName n ∈ s.bootNames :=
  mem_filterMap.mpr ⟨_, varExists_iff.mp h, bootVar_path n⟩

lemma isOurs_congr {s' : Store} (h : s'.var v = s.var v) (slot : Option Slot) :
    s'.isOurs v slot = s.isOurs v slot := by
  simp [isOurs, readVar, h]

lemma varExists_of_isOurs {slot : Option Slot} (h : s.isOurs v slot = true) : s.varExists v := by
  unfold isOurs readVar at h
  unfold varExists
  cases hv : s.var v with
  | none => simp [hv] at h
  | some w => rfl

lemma bootNames_write_of_exists (h : data ≠ []) (hname : s.varExists name) :
    (s.write io name data).bootNames = s.bootNames := by
  simp [bootNames, write, dif_neg h, names_put_of_mem _ (varExists_iff.mp hname)]

lemma bootNames_write_of_new (io : Io) (h : data ≠ []) (hname : ¬ s.varExists name) :
    ∃ before after, s.bootNames = before ++ after ∧
      (s.write io name data).bootNames = before ++ (bootVar (path name)).toList ++ after := by
  let names := Directory.names s.files
  refine ⟨(names.take (io.place name)).filterMap bootVar, (names.drop (io.place name)).filterMap bootVar, ?_, ?_⟩
  · rw [← filterMap_append, take_append_drop]
    rfl
  · have hnew : path name ∉ names := mt varExists_iff.mpr hname
    simp only [bootNames, write, dif_neg h, names_put_of_not_mem _ hnew, filterMap_append, filterMap_cons]
    cases bootVar (path name) <;> simp [names]

lemma bootNames_write_order (h : data ≠ []) : (s.write io bootOrder data).bootNames = s.bootNames := by
  by_cases hname : s.varExists bootOrder
  · exact bootNames_write_of_exists h hname
  · obtain ⟨before, after, hold, hnew⟩ := bootNames_write_of_new io h hname
    have hother : bootVar (path bootOrder) = none := by decide
    rw [hnew, hold, hother]
    simp

end Store

lemma units_putUcs2 (h : ∀ c ∈ text, 0 < c.toNat ∧ c.toNat < 65536) (rest : List UInt8) :
    units (putUcs2 text ++ rest) = (text.map Char.toNat, rest) := by
  induction text with
  | nil => rfl
  | cons c text ih =>
    obtain ⟨hpos, hlt⟩ := h c (by simp)
    have hput : putUcs2 (c :: text) ++ rest =
        UInt8.ofNat c.toNat :: UInt8.ofNat (c.toNat / 256) :: (putUcs2 text ++ rest) := by
      simp [putUcs2, le]
    have hunit : (UInt8.ofNat c.toNat).toNat + 256 * (UInt8.ofNat (c.toNat / 256)).toNat = c.toNat := by
      simp only [UInt8.toNat_ofNat']
      omega
    rw [hput, units]
    simp only [hunit, if_neg (Nat.ne_of_gt hpos), ih (fun d hd => h d (by simp [hd])), map_cons]

lemma printed_toNat {c : Char} (h : 32 ≤ c.toNat ∧ c.toNat < 127) : printed c.toNat = c := by
  rw [printed, if_pos h, Char.ofNat_toNat]

lemma printed_units (h : ∀ c ∈ text, 32 ≤ c.toNat ∧ c.toNat < 127) (rest : List UInt8) :
    (units (putUcs2 text ++ rest)).1.map printed = text ∧ (units (putUcs2 text ++ rest)).2 = rest := by
  rw [units_putUcs2 fun c hc => ⟨by have := h c hc; omega, by have := h c hc; omega⟩]
  refine ⟨?_, rfl⟩
  rw [List.map_map]
  conv_rhs => rw [← List.map_id text]
  apply List.map_congr_left
  intro c hc
  exact printed_toNat (h c hc)

lemma length_putUcs2 (text : List Char) : (putUcs2 text).length = (text.length + 1) * 2 := by
  have hunits : (text.flatMap (fun c => le 2 c.toNat)).length = text.length * 2 := by
    simp [length_flatMap]
  rw [putUcs2, length_append, hunits, length_le, Nat.add_one_mul]

def node (t st : UInt8) (body : List UInt8) : List UInt8 := [t, st] ++ Words.le 2 (4 + body.length) ++ body

lemma fileText_node (t st : UInt8) {body : List UInt8} (hbody : body.length < 65532) (rest : List UInt8)
    {left : ℕ} (hleft : 4 ≤ left) (turns : ℕ) (file : List Char) :
    fileText (turns + 1) left (node t st body ++ rest) file =
      let file' := if t = 4 ∧ st = 4 ∧ file = [] then ((units body).1.map printed).take 255 else file
      if t = 0x7f then file' else fileText turns (left - (4 + body.length)) rest file' := by
  have hshape : node t st body ++ rest = t :: st :: UInt8.ofNat (4 + body.length) ::
      UInt8.ofNat ((4 + body.length) / 256) :: (body ++ rest) := by
    simp [node, le]
  have hl : (UInt8.ofNat (4 + body.length)).toNat + 256 * (UInt8.ofNat ((4 + body.length) / 256)).toNat =
      4 + body.length := by
    simp only [UInt8.toNat_ofNat']
    omega
  have htake : ((t :: st :: UInt8.ofNat (4 + body.length) :: UInt8.ofNat ((4 + body.length) / 256) ::
      (body ++ rest)).take (4 + body.length)).drop 4 = body := by
    rw [Nat.add_comm]
    simp
  have hdrop : (t :: st :: UInt8.ofNat (4 + body.length) :: UInt8.ofNat ((4 + body.length) / 256) ::
      (body ++ rest)).drop (4 + body.length) = rest := by
    rw [Nat.add_comm]
    simp
  have hguard : ¬ (left < 4 ∨ 4 + body.length < 4) := by omega
  rw [hshape, fileText]
  simp only [hl, htake, hdrop, if_neg hguard]

lemma length_scanGroup {dash : Bool} {rest : List Char} {bytes : List UInt8}
    (h : scanGroup dash n text = some (bytes, rest)) : bytes.length = n := by
  induction n generalizing text rest bytes with
  | zero =>
    unfold scanGroup at h
    split_ifs at h
    · obtain ⟨_, -, heq⟩ := map_eq_some_iff.mp h
      rw [← (Prod.mk.inj heq).1]
      rfl
    · rw [← (Prod.mk.inj (some_inj.mp h)).1]
      rfl
  | succ n ih =>
    obtain ⟨⟨b, text'⟩, -, h⟩ := bind_eq_some_iff.mp h
    obtain ⟨⟨bs, rest'⟩, hgroup, h⟩ := bind_eq_some_iff.mp h
    rw [← (Prod.mk.inj (some_inj.mp h)).1, length_cons, ih hgroup]

lemma length_uuidToBytes (h : uuidToBytes text = some sig) : sig.length = 16 := by
  obtain ⟨⟨a, _⟩, ha, h⟩ := bind_eq_some_iff.mp h
  obtain ⟨⟨b, _⟩, hb, h⟩ := bind_eq_some_iff.mp h
  obtain ⟨⟨c, _⟩, hc, h⟩ := bind_eq_some_iff.mp h
  obtain ⟨⟨d, _⟩, hd, h⟩ := bind_eq_some_iff.mp h
  obtain ⟨⟨e, _⟩, he, h⟩ := bind_eq_some_iff.mp h
  rw [← some_inj.mp h]
  simp [length_scanGroup ha, length_scanGroup hb, length_scanGroup hc, length_scanGroup hd, length_scanGroup he]

lemma length_devicePath (esp : Part) (hsig : sig.length = 16) (file : List Char) :
    (devicePath esp sig file).length = 50 + (file.length + 1) * 2 := by
  simp only [devicePath, length_append, length_cons, length_nil, length_le, length_putUcs2, hsig]
  omega

lemma devicePath_eq (esp : Part) (hsig : sig.length = 16) (file : List Char) : ∃ body : List UInt8, body.length = 38 ∧
      devicePath esp sig file = node 4 1 body ++ (node 4 4 (putUcs2 file) ++ (node 0x7f 0xff [] ++ [])) := by
  let body := le 4 esp.number ++ le 8 esp.start ++ le 8 esp.size ++ sig ++ [0x02, 0x02]
  have hbody : body.length = 38 := by simp [body, hsig]
  refine ⟨body, hbody, ?_⟩
  simp only [node, hbody, length_putUcs2]
  simp [devicePath, body]

lemma fileText_devicePath (esp : Part) (hsig : sig.length = 16) (hfile : ∀ c ∈ file, 32 ≤ c.toNat ∧ c.toNat < 127)
    (hshort : file.length ≤ 255) :
    fileText (devicePath esp sig file).length (devicePath esp sig file).length (devicePath esp sig file) [] = file := by
  obtain ⟨turns, hturns⟩ : ∃ turns, (devicePath esp sig file).length = turns + 1 + 1 + 1 :=
    ⟨47 + (file.length + 1) * 2, by rw [length_devicePath esp hsig]; omega⟩
  have hlen := length_devicePath esp hsig file
  obtain ⟨body, hbody, hpath⟩ := devicePath_eq esp hsig file
  obtain ⟨htext, -⟩ := printed_units hfile []
  rw [append_nil] at htext
  have hput := length_putUcs2 file
  have hhd : ¬ (1 : UInt8) = 4 := by decide
  have hnode : ¬ (4 : UInt8) = 0x7f := by decide
  rw [hturns, hpath, fileText_node 4 1 (by omega) _ (by omega)]
  simp only [hhd, hnode, false_and, and_false, if_false]
  rw [fileText_node 4 4 (by omega) _ (by omega)]
  simp only [hnode, true_and, if_true, if_false, htext, take_of_length_le hshort]
  rw [fileText_node 0x7f 0xff (by decide) _ (by omega)]
  simp

lemma optionText_buildLoadOption {desc : List Char} (h : buildLoadOption esp desc file = some option)
    (hdesc : ∀ c ∈ desc, 32 ≤ c.toNat ∧ c.toNat < 127) (hfile : ∀ c ∈ file, 32 ≤ c.toNat ∧ c.toNat < 127)
    (hshort : desc.length ≤ 127) (hlong : file.length ≤ 255) :
    optionText option = some (desc, file) := by
  obtain ⟨sig, hsig, rfl⟩ := map_eq_some_iff.mp h
  have hlen := length_devicePath esp (length_uuidToBytes hsig) file
  have hd : (UInt8.ofNat (devicePath esp sig file).length).toNat +
      256 * (UInt8.ofNat ((devicePath esp sig file).length / 256)).toNat = (devicePath esp sig file).length := by
    simp only [UInt8.toNat_ofNat']
    omega
  obtain ⟨htext, hrest⟩ := printed_units hdesc (devicePath esp sig file)
  have hshape : le 4 1 ++ le 2 (devicePath esp sig file).length ++ putUcs2 desc ++
      devicePath esp sig file = 1 :: 0 :: 0 :: 0 :: UInt8.ofNat (devicePath esp sig file).length ::
        UInt8.ofNat ((devicePath esp sig file).length / 256) :: (putUcs2 desc ++ devicePath esp sig file) := by
    rfl
  simp only [hshape, optionText, htext, hrest, hd, take_of_length_le hshort,
    fileText_devicePath esp (length_uuidToBytes hsig) hfile hlong]

lemma length_buildLoadOption {slot : Slot} (h : buildLoadOption esp slot.description slot.file = some option) :
    option.length = 140 := by
  obtain ⟨sig, hsig, rfl⟩ := map_eq_some_iff.mp h
  have hlen := length_devicePath esp (length_uuidToBytes hsig) slot.file
  simp only [length_append, length_le, length_putUcs2, hlen]
  cases slot <;> rfl

lemma Slot.printing (slot : Slot) : ∀ c ∈ slot.description ++ slot.file, 32 ≤ c.toNat ∧ c.toNat < 127 := by
  have hall : (slot.description ++ slot.file).all (fun c => 32 ≤ c.toNat && c.toNat < 127) = true := by
    cases slot <;> decide
  intro c hc
  simpa using all_eq_true.mp hall c hc

lemma Store.isOurs_of_var {slot : Slot} {w : Var} (h : buildLoadOption esp slot.description slot.file = some option)
    (hv : s.var v = some w) (hw : w.data = option) :
    s.isOurs v (some slot) = true := by
  have hlen := length_buildLoadOption h
  have htext := optionText_buildLoadOption h (fun c hc => slot.printing c (mem_append_left _ hc))
    (fun c hc => slot.printing c (mem_append_right _ hc)) (by cases slot <;> decide) (by cases slot <;> decide)
  have hread : s.readVar v 2048 = some option := by
    rw [readVar, hv, map_some, hw, take_of_length_le (by omega)]
  unfold isOurs
  rw [hread, bind_some, htext]
  cases slot <;> decide

end Kryptik.Efi
