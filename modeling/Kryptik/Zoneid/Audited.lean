import Kryptik.Kryptikd.ZoneGrammar
import Kryptik.Zoneid.Alike
import Kryptik.Zoneid.Identity

namespace Kryptik.Zoneid

open Lib.Text Lib.Fallible List Option
open Kryptikd (Zone fullKey)

variable {w : String} {o o' : Option String}

lemma hexDigit_lowered {c : Char} (h : isAsciiHexdigit (toAsciiLowercase c) = true) :
    ∃ b b', String.utf8EncodeChar c = [b] ∧ String.utf8EncodeChar (toAsciiLowercase c) = [b'] ∧
      hexDigit b' = hexDigit b := by
  have hall : ∀ n < 128, isAsciiHexdigit (toAsciiLowercase (Char.ofNat n)) = true →
      String.utf8EncodeChar (Char.ofNat n) = [UInt8.ofNat n] ∧
      String.utf8EncodeChar (toAsciiLowercase (Char.ofNat n)) = [UInt8.ofNat (toAsciiLowercase (Char.ofNat n)).toNat] ∧
      hexDigit (UInt8.ofNat (toAsciiLowercase (Char.ofNat n)).toNat) = hexDigit (UInt8.ofNat n) := by
    decide +kernel
  have hlt : c.toNat < 128 := by
    by_cases hupper : isAsciiUppercase c = true
    · simp only [isAsciiUppercase, Bool.and_eq_true, decide_eq_true_eq] at hupper
      have : c.toNat ≤ 90 := hupper.2
      omega
    · have hsame : toAsciiLowercase c = c := by simp [toAsciiLowercase, hupper]
      rw [hsame] at h
      simp only [isAsciiHexdigit, isAsciiDigit, Bool.or_eq_true, Bool.and_eq_true, decide_eq_true_eq] at h
      obtain (⟨-, h⟩ | ⟨-, h⟩) | ⟨-, h⟩ := h
      · have : c.toNat ≤ 57 := h
        omega
      · have : c.toNat ≤ 102 := h
        omega
      · have : c.toNat ≤ 70 := h
        omega
  have hc := hall c.toNat hlt
  rw [Char.ofNat_toNat] at hc
  obtain ⟨h1, h2, h3⟩ := hc h
  exact ⟨_, _, h1, h2, h3⟩

lemma toAsciiLowercase_eq_hash {c : Char} (h : toAsciiLowercase c = '#') : c = '#' := by
  by_cases hupper : isAsciiUppercase c = true
  · have hall : ∀ n < 91, isAsciiUppercase (Char.ofNat n) = true → toAsciiLowercase (Char.ofNat n) ≠ '#' := by decide
    have hlt : c.toNat < 91 := by
      simp only [isAsciiUppercase, Bool.and_eq_true, decide_eq_true_eq] at hupper
      exact Nat.lt_succ_of_le hupper.2
    have hc := hall c.toNat hlt
    rw [Char.ofNat_toNat] at hc
    exact absurd h (hc hupper)
  · simpa [toAsciiLowercase, hupper] using h

lemma fromHex_lowered (h : Kryptikd.isHexColour (Kryptikd.lowered w) = true) :
    Srgb.fromHex (Kryptikd.lowered w) = Srgb.fromHex w := by
  simp only [Kryptikd.isHexColour, Kryptikd.lowered, String.toList_ofList, Bool.and_eq_true, decide_eq_true_eq,
    List.all_eq_true] at h
  obtain ⟨⟨hlen, hhead⟩, hhex⟩ := h
  unfold Srgb.fromHex
  rw [Kryptikd.lowered, String.toList_ofList]
  generalize w.toList = cs at hlen hhead hhex ⊢
  cases cs with
  | nil => cases hhead
  | cons c cs =>
    obtain rfl := toAsciiLowercase_eq_hash (by simpa using hhead)
    have hdigits : ∀ d ∈ cs, isAsciiHexdigit (toAsciiLowercase d) = true := fun d hd =>
      hhex _ (List.mem_map_of_mem hd)
    have hsizes : cs.length = 6 := by
      rw [byteLen_eq_length] at hlen
      · simpa using hlen
      · intro d hd
        rw [map_cons, mem_cons] at hd
        obtain rfl | hd := hd
        · decide
        · obtain ⟨e, he, rfl⟩ := mem_map.mp hd
          obtain ⟨b, b', -, hb', -⟩ := hexDigit_lowered (hdigits e he)
          rw [← String.length_utf8EncodeChar, hb']
          rfl
    rcases cs with _ | ⟨c1, _ | ⟨c2, _ | ⟨c3, _ | ⟨c4, _ | ⟨c5, _ | ⟨c6, _ | ⟨c7, cs⟩⟩⟩⟩⟩⟩⟩ <;>
      simp at hsizes
    obtain ⟨b1, d1, h1, k1, e1⟩ := hexDigit_lowered (hdigits c1 (by simp))
    obtain ⟨b2, d2, h2, k2, e2⟩ := hexDigit_lowered (hdigits c2 (by simp))
    obtain ⟨b3, d3, h3, k3, e3⟩ := hexDigit_lowered (hdigits c3 (by simp))
    obtain ⟨b4, d4, h4, k4, e4⟩ := hexDigit_lowered (hdigits c4 (by simp))
    obtain ⟨b5, d5, h5, k5, e5⟩ := hexDigit_lowered (hdigits c5 (by simp))
    obtain ⟨b6, d6, h6, k6, e6⟩ := hexDigit_lowered (hdigits c6 (by simp))
    have hhash : String.utf8EncodeChar '#' = [35] := by decide
    have hlower : toAsciiLowercase '#' = '#' := by decide
    simp only [map_cons, map_nil, flatMap_cons, flatMap_nil, hlower, hhash, h1, h2, h3, h4, h5, h6,
      k1, k2, k3, k4, k5, k6, singleton_append, append_nil, component, e1, e2, e3, e4, e5, e6]
    rfl

lemma validate_looks {z : Zone} (h : z.validate = .ok ()) :
    Kryptikd.isHexColour z.borderColor = true ∧ (∀ p, z.borderPattern = some p → p ∈ Kryptikd.borderPatterns) ∧
      ∀ g, z.glyph = some g → g.toList.length = 1 := by
  unfold Zone.validate at h
  split_ifs at h with _ _ _ _ _ hcolour hpattern hglyph
  refine ⟨by simpa using hcolour, ?_, ?_⟩
  · intro p hp
    rw [hp] at hpattern
    simpa using hpattern
  · intro g hg
    rw [hg] at hglyph
    simp only [any_some, Kryptikd.validGlyph, Bool.not_eq_true', Bool.not_eq_false, Bool.and_eq_true,
      decide_eq_true_eq] at hglyph
    exact hglyph.1

structure Agree (z : Zone) (id : ZoneIdentity) : Prop where
  name : id.zone = z.name
  color : Srgb.fromHex z.borderColor = .ok id.color
  pattern : id.pattern.map Pattern.name = z.borderPattern
  glyph : id.glyph.map String.singleton = z.glyph
  label : id.label = z.label

/-- No line of `[ui]` with the key `label` has a backslash before its comment. -/
def PlainLabel (text : String) : Prop :=
  ∀ value, Kryptikd.Given "ui.label" value [] (lines text.toList) → '\\' ∉ value

lemma taken_slash {x v : List Char} (h : Kryptikd.Taken (trim x) v) : '\\' ∈ x ↔ '\\' ∈ v := by
  have htrim : '\\' ∈ x ↔ '\\' ∈ trim x := ⟨fun h => mem_trim h (by decide), mem_of_mem_trim⟩
  rw [htrim]
  generalize trim x = t at h
  cases h with
  | quoted => simp
  | bare => rfl

lemma plainLabel_iff {text : String} {kv : Kryptikd.Settings} (h : Kryptikd.parseFlatToml text = .ok kv) :
    PlainLabel text ↔ ∀ l, kv.lookup "ui.label" = some l → '\\' ∉ l.toList := by
  have hsingle := Kryptikd.parseFlatToml_single h
  obtain ⟨ls, hls, -, rfl⟩ := Kryptikd.parseFlatToml_ok.mp h
  rw [← not_iff_not]
  unfold PlainLabel
  push Not
  rw [Kryptikd.exists_given (fun _ _ => taken_slash) hls]
  constructor
  · rintro ⟨e, he, hfull, hin⟩
    refine ⟨String.ofList e.2, ?_, by rwa [String.toList_ofList]⟩
    rw [← hfull]
    exact hsingle _ (mem_map_of_mem he)
  · rintro ⟨l, hl, hin⟩
    obtain ⟨a, b, hsplit, -⟩ := lookup_eq_some_iff.mp hl
    obtain ⟨e, he, hsetting⟩ := mem_map.mp (hsplit ▸ mem_append_cons_self)
    refine ⟨e, he, congrArg Prod.fst hsetting, ?_⟩
    rwa [← (Prod.mk.inj hsetting).2, String.toList_ofList] at hin

lemma Match.exists (h : Match o o') (hw : o = some w) : ∃ v, o' = some v ∧ Reading w.toList v.toList := by
  subst hw
  cases o' with
  | none => exact absurd h id
  | some v => exact ⟨v, rfl, h⟩

lemma Match.eq (h : Match o o') (hw : o = some w) (hslash : '\\' ∉ w.toList) : o' = some w := by
  obtain ⟨v, hv, hreading⟩ := h.exists hw
  rw [hv, String.toList_inj.mp (hreading.eq hslash)]

lemma channel_match {α : Type} {validate : String → Except IdentityError α} {r : Option α} (h : Match o o')
    (hr : channel validate o' = .ok r) :
    (o = none ∧ r = none) ∨ ∃ w v a, o = some w ∧ Reading w.toList v.toList ∧ r = some a ∧ validate v = .ok a := by
  cases o with
  | none =>
    cases o' with
    | none => exact .inl ⟨rfl, (Except.ok.inj hr).symm⟩
    | some v => exact absurd h id
  | some w =>
    cases o' with
    | none => exact absurd h id
    | some v =>
      obtain ⟨a, ha, rfl⟩ := map_ok.mp hr
      exact .inr ⟨w, v, a, rfl, h, rfl, ha⟩

lemma pattern_eq {r : Option Pattern} (h : Match o o') (hvalid : ∀ p, o = some p → p ∈ Kryptikd.borderPatterns)
    (hr : channel Pattern.parse o' = .ok r) :
    r.map Pattern.name = o := by
  obtain ⟨rfl, rfl⟩ | ⟨w, v, p, rfl, hreading, rfl, hp⟩ := channel_match h hr
  · rfl
  · have hall : Kryptikd.borderPatterns.all (fun p => p.toList.all (· ≠ '\\')) = true := by decide
    have hslash : '\\' ∉ w.toList := by
      intro hin
      have := all_eq_true.mp (all_eq_true.mp hall w (hvalid w rfl)) '\\' hin
      exact absurd this (by decide)
    obtain rfl := String.toList_inj.mp (hreading.eq hslash)
    unfold Pattern.parse at hp
    split at hp
    next q hq =>
      cases hp
      have := List.find?_some hq
      simpa using this
    · cases hp

lemma validateGlyph_ok {s : String} {c : Char} (h : validateGlyph s = .ok c) : s.toList = [c] ∧ c ∈ glyphAllowlist := by
  unfold validateGlyph at h
  split at h
  next d hs =>
    split_ifs at h with hin
    cases h
    exact ⟨hs, hin⟩
  · cases h

lemma glyph_eq {r : Option Char} (h : Match o o') (hvalid : ∀ g, o = some g → g.toList.length = 1)
    (hr : channel validateGlyph o' = .ok r) :
    r.map String.singleton = o := by
  obtain ⟨rfl, rfl⟩ | ⟨w, v, c, rfl, hreading, rfl, hc⟩ := channel_match h hr
  · rfl
  · obtain ⟨hlist, hallowed⟩ := validateGlyph_ok hc
    obtain ⟨d, hd⟩ := length_eq_one_iff.mp (hvalid w rfl)
    by_cases hslash : d = '\\'
    · rw [hd, hslash] at hreading
      have hhead := hreading.head_quote
      rw [hlist] at hhead
      obtain rfl : c = '"' := by simpa using hhead
      exact absurd hallowed (by decide)
    · have hsame := hreading.eq (by rw [hd]; simpa using Ne.symm hslash)
      rw [hlist] at hsame
      refine congrArg some (String.toList_inj.mp ?_)
      rw [← hsame, String.toList_singleton]

lemma validateLabel_ok {s l : String} (h : validateLabel s = .ok l) : l = s := by
  unfold validateLabel at h
  split at h
  · cases h
  split at h
  · cases h
  split at h
  · cases h
  split at h
  · cases h
  · exact (Except.ok.inj h).symm

lemma label_eq_iff {r : Option String} (h : Match o o') (hr : channel validateLabel o' = .ok r) :
    r = o ↔ ∀ l, o = some l → '\\' ∉ l.toList := by
  obtain ⟨rfl, rfl⟩ | ⟨w, v, l, rfl, hreading, rfl, hl⟩ := channel_match h hr
  · simp
  · obtain rfl := validateLabel_ok hl
    constructor
    · intro hsame w' hw' hin
      cases hw'
      cases hsame
      exact hreading.ne hin rfl
    · intro hplain
      rw [String.toList_inj.mp (hreading.eq (hplain w rfl))]

lemma not_slash_of_isHexColour (h : Kryptikd.isHexColour (Kryptikd.lowered w) = true) : '\\' ∉ w.toList := by
  simp only [Kryptikd.isHexColour, Kryptikd.lowered, String.toList_ofList, Bool.and_eq_true, decide_eq_true_eq,
    List.all_eq_true] at h
  obtain ⟨⟨-, hhead⟩, hhex⟩ := h
  intro hin
  have hlower : '\\' ∈ w.toList.map toAsciiLowercase := List.mem_map.mpr ⟨_, hin, by decide⟩
  cases hw : w.toList.map toAsciiLowercase with
  | nil =>
    rw [hw] at hlower
    exact absurd hlower List.not_mem_nil
  | cons c cs =>
    rw [hw] at hlower hhead hhex
    obtain rfl | hlower := List.mem_cons.mp hlower
    · cases hhead
    · cases hhex _ hlower

lemma loadZone_ok {stem text : String} {id : ZoneIdentity} (h : loadZone stem text = .ok (some id)) :
    ∃ doc color, parse text = .ok doc ∧ doc.get "ui" "border_color" = some color ∧
      id.zone = (doc.get "zone" "name").getD stem ∧ Srgb.fromHex color = .ok id.color ∧
      channel Pattern.parse (doc.get "ui" "border_pattern") = .ok id.pattern ∧
      channel validateGlyph (doc.get "ui" "glyph") = .ok id.glyph ∧
      channel validateLabel (doc.get "ui" "label") = .ok id.label := by
  obtain ⟨doc, hdoc, h⟩ := bind_ok.mp h
  cases hcolor : doc.get "ui" "border_color" with
  | none =>
    rw [hcolor] at h
    cases h
  | some color =>
    rw [hcolor] at h
    obtain ⟨id', hid, h⟩ := bind_ok.mp h
    cases pure_ok.mp h
    have hid := mapError_ok.mp hid
    obtain ⟨rgb, hrgb, hid⟩ := bind_ok.mp hid
    obtain ⟨pattern, hpattern, hid⟩ := bind_ok.mp hid
    obtain ⟨glyph, hglyph, hid⟩ := bind_ok.mp hid
    obtain ⟨label, hlabel, hid⟩ := bind_ok.mp hid
    obtain rfl := pure_ok.mp hid
    exact ⟨doc, color, mapError_ok.mp hdoc, hcolor, rfl, mapError_ok.mp hrgb, hpattern, hglyph, hlabel⟩

/-- Of a file both accept `zoneid` has the name, the colour, the pattern and the glyph that `kryptikd` has. It has
the label too just when there is no backslash in it. -/
theorem audited_iff_plainLabel {stem text : String} {z : Zone} {id : ZoneIdentity} (hz : Zone.fromStr text = .ok z)
    (hid : loadZone stem text = .ok (some id)) : Agree z id ↔ PlainLabel text := by
  obtain ⟨kv, hkv, hsettled⟩ := Zone.fromStr_settled hz
  obtain ⟨doc, color, hdoc, hcolor, hname, hrgb, hpattern, hglyph, hlabel⟩ := loadZone_ok hid
  obtain ⟨hhex, hpatterns, hglyphs⟩ := validate_looks hsettled.valid
  obtain ⟨-, hchars, -⟩ := Zone.validate_ok hsettled.valid
  obtain ⟨w, hw, hlowered⟩ := hsettled.colour
  have hmatch : ∀ s k : String, s.toList ≠ [] → '.' ∉ s.toList →
      Match (kv.lookup (fullKey s.toList k.toList)) (doc.get s k) :=
    fun s k => match_of_parse hkv hdoc hsettled.known
  have hlabels := label_eq_iff (hmatch "ui" "label" (by decide) (by decide)) hlabel
  have hzone : id.zone = z.name := by
    have hslash : '\\' ∉ z.name.toList := fun hin => absurd (hchars '\\' hin) (by decide)
    have hread := (hmatch "zone" "name" (by decide) (by decide)).eq hsettled.name hslash
    rw [hname, hread, getD_some]
  have hcolour : Srgb.fromHex z.borderColor = .ok id.color := by
    rw [hlowered] at hhex ⊢
    have hread := (hmatch "ui" "border_color" (by decide) (by decide)).eq hw (not_slash_of_isHexColour hhex)
    rw [hcolor] at hread
    rw [fromHex_lowered hhex, ← some_inj.mp hread, hrgb]
  rw [plainLabel_iff hkv]
  constructor
  · intro hagree
    exact hlabels.mp (hagree.label.trans hsettled.label)
  · intro hall
    refine ⟨hzone, hcolour, ?_, ?_, ?_⟩
    · rw [hsettled.pattern] at hpatterns ⊢
      exact pattern_eq (hmatch "ui" "border_pattern" (by decide) (by decide)) hpatterns hpattern
    · rw [hsettled.glyph] at hglyphs ⊢
      exact glyph_eq (hmatch "ui" "glyph" (by decide) (by decide)) hglyphs hglyph
    · rw [hsettled.label]
      exact hlabels.mpr hall

def webText (label : String) : String :=
  "[zone]\nname = \"web\"\n[network]\nmode = \"none\"\n[storage]\nmode = \"persistent\"\n[ui]\nborder_color = " ++
  "\"#A03030\"\nlabel = \"" ++ label ++ "\"\n"

theorem audited_iff_plainLabel_web : ∃ z id, Zone.fromStr (webText "WEB") = .ok z ∧
    loadZone "web" (webText "WEB") = .ok (some id) ∧ Agree z id := by
  have h : (Zone.fromStr (webText "WEB")).toOption.isSome = true ∧
      (loadZone "web" (webText "WEB")).toOption.join.isSome = true ∧
      (Kryptikd.parseFlatToml (webText "WEB")).toOption.any (fun kv => kv.lookup "ui.label" = some "WEB") = true := by
    decide +kernel
  obtain ⟨hz, hid, hlabel⟩ := h
  obtain ⟨z, hz⟩ := isSome_iff_exists.mp hz
  obtain ⟨id, hid⟩ := isSome_iff_exists.mp hid
  have hz := toOption_eq_some.mp hz
  have hid := toOption_eq_some.mp (join_eq_some_iff.mp hid)
  obtain ⟨kv, hkv, hweb⟩ := (any_eq_true _ _).mp hlabel
  refine ⟨z, id, hz, hid, (audited_iff_plainLabel hz hid).mpr ((plainLabel_iff (toOption_eq_some.mp hkv)).mpr ?_)⟩
  intro l hl
  cases hl.symm.trans (of_decide_eq_true hweb)
  decide

/-- A label with an escaped backslash: `kryptikd` keeps the two characters, `zoneid` makes one of them. -/
theorem audited_label_differs : ∃ z id, Zone.fromStr (webText "A\\\\B") = .ok z ∧
    loadZone "web" (webText "A\\\\B") = .ok (some id) ∧ z.label = some "A\\\\B" ∧ id.label = some "A\\B" ∧
    ¬ Agree z id := by
  have h : (Zone.fromStr (webText "A\\\\B")).toOption.any (fun z => z.label = some "A\\\\B") = true ∧
      (loadZone "web" (webText "A\\\\B")).toOption.join.any (fun id => id.label = some "A\\B") = true := by
    decide +kernel
  obtain ⟨z, hz, hlabel⟩ := (any_eq_true _ _).mp h.1
  obtain ⟨id, hid, hlabel'⟩ := (any_eq_true _ _).mp h.2
  have hlabel := of_decide_eq_true hlabel
  have hlabel' := of_decide_eq_true hlabel'
  refine ⟨z, id, toOption_eq_some.mp hz, toOption_eq_some.mp (join_eq_some_iff.mp hid), hlabel, hlabel', ?_⟩
  intro hagree
  rw [← hagree.label, hlabel'] at hlabel
  exact absurd hlabel (by decide)

end Kryptik.Zoneid
