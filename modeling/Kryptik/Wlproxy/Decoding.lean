import Kryptik.Wlproxy.Encoding

namespace Kryptik.Wlproxy.Protocol

open Lib Wire List

variable {i : Interface}
variable {d : Decoded} {args : List Arg} {m : Message} {vs : List Value} {body rest : Bytes} {s : String}

lemma find_name (i : Interface) : find i.name = some i := by cases i <;> decide

lemma Interface.name_inj {j : Interface} (h : i.name = j.name) : i = j := by
  have := congrArg find h
  rw [find_name, find_name] at this
  exact Option.some.inj this

variable {name : String}

lemma name_of_find (h : find name = some i) : name = i.name := by
  have := List.find?_some h
  exact (beq_iff_eq.mp this).symm

lemma u32_ok {n : ℕ} (h : ArgReader.u32 body = .ok (n, rest)) : n < 2 ^ 32 := by
  obtain ⟨_, _, hn, _⟩ := (u32_exact _ _ _).mp h
  exact hn

/-- How a decoded message comes by its new object: its signature has none, one of
a fixed interface, or one that names its interface. -/
inductive Makes (args : List Arg) (d : Decoded) : Prop
  | none : d.newObject = .none → d.bindVersion = .none → (∀ i, Arg.newId i ∉ args) → Makes args d
  | typed (i : Interface) (id : ℕ) : id < 2 ^ 32 → Arg.newId (some i) ∈ args →
      d.newObject = some (id, i.name) → d.bindVersion = .none → Makes args d
  | named (id : ℕ) (name : String) (version : ℕ) : id < 2 ^ 32 → Arg.newId .none ∈ args →
      d.newObject = some (id, name) → d.bindVersion = some version → Makes args d

lemma EncodesAll.makes (h : EncodesAll args body vs) (hone : args.countP Arg.isNewId ≤ 1) :
    Makes args (told args vs) := by
  induction h with
  | nil => exact .none rfl rfl (by simp)
  | @cons a v args vs front rest ha hall ih =>
    rw [countP_cons] at hone
    cases hnew : a.isNewId with
    | false =>
      obtain ⟨hobject, hversion⟩ := object_none hnew ha
      have ho : (told (a :: args) (v :: vs)).newObject = (told args vs).newObject := by simp [told, hobject]
      have hb : (told (a :: args) (v :: vs)).bindVersion = (told args vs).bindVersion := by simp [told, hversion]
      cases ih (by omega) with
      | none ho' hb' hi =>
        refine .none (ho.trans ho') (hb.trans hb') fun i hin => ?_
        obtain rfl | hin := mem_cons.mp hin
        · cases hnew
        · exact hi i hin
      | typed i id hlt hi ho' hb' => exact .typed i id hlt (mem_cons_of_mem _ hi) (ho.trans ho') (hb.trans hb')
      | named id name version hlt hi ho' hb' =>
        exact .named id name version hlt (mem_cons_of_mem _ hi) (ho.trans ho') (hb.trans hb')
    | true =>
      rw [hnew, if_pos rfl] at hone
      have hrest := hall.none_made (by omega)
      cases a with
      | newId i =>
        cases i with
        | some i =>
          obtain ⟨n, hn, rfl, rfl⟩ := ha
          exact .typed i n hn mem_cons_self rfl hrest.2
        | none =>
          obtain ⟨name, version, id, text, -, -, hid, -, rfl⟩ := ha
          exact .named id name version hid mem_cons_self rfl rfl
      | _ => cases hnew

lemma decode_makes (h : decode m body = .ok d) : Makes m.args d := by
  obtain ⟨hone, vs, hall, rfl⟩ := decode_iff.mp h
  exact hall.makes hone

variable {id : ℕ}

lemma decode_first {tail : List Arg} (ha : m.args = .newId (some i) :: tail) (h : decode m body = .ok d)
    (hid : ArgReader.u32 body = .ok (id, rest)) :
    d.newObject = some (id, i.name) := by
  obtain ⟨-, vs, hall, rfl⟩ := decode_iff.mp h
  rw [ha] at hall ⊢
  cases hall with
  | cons hv hall =>
    obtain ⟨n, hn, rfl, rfl⟩ := hv
    rw [u32_bytes, Nat.mod_eq_of_lt hn] at hid
    cases hid
    rfl

lemma EncodesAll.newId_word (h : EncodesAll args body vs)
    (hn : (args.zip vs).findSome? Value.object = some (id, name)) :
    id < 2 ^ 32 ∧ ∃ before after, body = before ++ Words.bytes id ++ after := by
  induction h with
  | nil => cases hn
  | @cons a v args vs front rest ha hall ih =>
    rw [zip_cons_cons, findSome?_cons] at hn
    cases hnew : a.isNewId with
    | false =>
      rw [(object_none hnew ha).1] at hn
      obtain ⟨hid, before, after, rfl⟩ := ih hn
      exact ⟨hid, front ++ before, after, by simp⟩
    | true =>
      cases a with
      | newId i =>
        cases i with
        | some i =>
          obtain ⟨n, hlt, rfl, rfl⟩ := ha
          cases hn
          exact ⟨hlt, [], rest, rfl⟩
        | none =>
          obtain ⟨_, version, n, text, -, -, hlt, rfl, rfl⟩ := ha
          cases hn
          exact ⟨hlt, text ++ Words.bytes version, rest, rfl⟩
      | _ => cases hnew

lemma decode_word {n : ℕ} (h : decode m (Words.bytes n) = .ok d)
    (hs : d.newObject = some (id, name)) : id = n % 2 ^ 32 := by
  obtain ⟨-, vs, hall, rfl⟩ := decode_iff.mp h
  obtain ⟨hid, before, after, hb⟩ := hall.newId_word hs
  have hlen := congrArg List.length hb
  simp only [length_append, Words.length_bytes] at hlen
  obtain rfl : before = [] := eq_nil_of_length_eq_zero (by omega)
  have hread : ArgReader.u32 (Words.bytes n ++ []) = .ok (n % 2 ^ 32, []) := u32_bytes n
  rw [append_nil, hb, nil_append, u32_bytes, Nat.mod_eq_of_lt hid] at hread
  exact (Prod.mk.inj (Except.ok.inj hread)).1

lemma decode_string (ha : m.args = [.string false]) (h : NulFree s) (hl : (utf8 s).length + 1 < 2 ^ 32) :
    decode m (MessageWriter.stringBytes s) = .ok { strings := [(0, s)] } := by
  have hall : EncodesAll [.string false] (MessageWriter.stringBytes s ++ []) [.text (some s)] :=
    .cons ⟨some s, textBytes_stringBytes h hl, nofun, rfl⟩ .nil
  rw [append_nil] at hall
  exact decode_iff.mpr ⟨by rw [ha]; decide, _, ha ▸ hall, by rw [ha]; rfl⟩

lemma decode_strings (ha : m.args = [.string false]) (h : decode m body = .ok d) :
    ∃ off s, d.strings = [(off, s)] := by
  obtain ⟨-, vs, hall, rfl⟩ := decode_iff.mp h
  rw [ha] at hall
  cases hall with
  | cons hv hall =>
    cases hall
    obtain ⟨s, -, hnull, rfl⟩ := hv
    cases s with
    | none => cases hnull rfl
    | some s => exact ⟨0, s, rfl⟩

section Creations

/-- Whether the object an argument creates, if it says of which interface, is
served as `served` says. -/
def Arg.creates (served : Bool) : Arg → Bool
  | .newId (some i) => Policy.served i.name == served
  | _ => true

lemma requests_create (i : Interface) :
    ∀ m ∈ i.table .clientToServer, ∀ a ∈ m.args, a.creates (Policy.served i.name) = true := by
  cases i <;> decide

lemma requests_name (i : Interface) : ∀ x ∈ (i.table .clientToServer).zipIdx,
    Arg.newId none ∈ x.1.args → i = .wlRegistry ∧ x.2 = wlRegistryBind := by
  cases i <;> decide

lemma events_create (i : Interface) : ∀ m ∈ i.table .serverToClient, ∀ a ∈ m.args,
    a.isNewId = true → a = .newId (some .wlDataOffer) ∧ i = .wlDataDevice := by
  cases i <;> decide

variable {iface : Interface} {opcode id : ℕ} {name : String}

lemma made_request (he : (iface.table .clientToServer)[opcode]? = some m)
    (hd : decode m body = .ok d) (hn : d.newObject = some (id, name)) : id < 2 ^ 32 ∧
      ((∃ j, name = j.name ∧ Policy.served j.name = Policy.served iface.name ∧
        Arg.newId (some j) ∈ m.args ∧ d.bindVersion = none) ∨
      iface = .wlRegistry ∧ opcode = wlRegistryBind) := by
  cases decode_makes hd with
  | none h => rw [hn] at h; cases h
  | typed i id' hlt hin h hv =>
    cases hn.symm.trans h
    have hs := requests_create iface m (mem_of_getElem? he) _ hin
    exact ⟨hlt, Or.inl ⟨i, rfl, by simpa [Arg.creates] using hs, hin, hv⟩⟩
  | named id' name' version hlt hin h hv =>
    cases hn.symm.trans h
    exact ⟨hlt, Or.inr (requests_name iface (m, opcode) (mem_zipIdx_iff_getElem?.mpr he) hin)⟩

lemma made_event (he : (iface.table .serverToClient)[opcode]? = some m)
    (hd : decode m body = .ok d) (hn : d.newObject = some (id, name)) :
    name = "wl_data_offer" ∧ iface = .wlDataDevice ∧ d.bindVersion = none ∧ id < 2 ^ 32 := by
  have hev := events_create iface m (mem_of_getElem? he)
  cases decode_makes hd with
  | none h => rw [hn] at h; cases h
  | typed i id' hlt hin h hv =>
    cases hn.symm.trans h
    obtain ⟨ha, hi⟩ := hev _ hin rfl
    obtain rfl : i = .wlDataOffer := by simpa using ha
    exact ⟨rfl, hi, hv, hlt⟩
  | named id' name' version hlt hin h hv => simpa using (hev _ hin rfl).1

lemma window_args : ∀ m ∈ Interface.xdgSurface.table .clientToServer,
    m.name = "get_toplevel" → m.args = [.newId (some .xdgToplevel)] := by
  decide

lemma made_window (hm : m ∈ Interface.xdgSurface.table .clientToServer)
    (hname : m.name = "get_toplevel") (hd : decode m body = .ok d) :
    ∃ id < 2 ^ 32, d.newObject = some (id, "xdg_toplevel") := by
  have ha := window_args m hm hname
  cases decode_makes hd with
  | none h _ hno => exact absurd (ha ▸ mem_singleton_self _) (hno (some .xdgToplevel))
  | typed i id hlt hin h =>
    obtain rfl : i = .xdgToplevel := by simpa [ha] using hin
    exact ⟨id, hlt, h⟩
  | named _ _ _ _ hin => simp [ha] at hin

end Creations

end Kryptik.Wlproxy.Protocol
