import Kryptik.Lib.Words

namespace Kryptik.Kryptikd.Netlink

open Lib Words List

abbrev Bytes := List UInt8

def rtmDellinkprop : ℕ := 109
def nlaFNested : ℕ := 0x8000
def nlaTypeMask : ℕ := 0x3fff
def iflaIfalias : ℕ := 20
def iflaPropList : ℕ := 52
def iflaAltIfname : ℕ := 53

def align4 (n : ℕ) : ℕ := (n + 3) / 4 * 4

def padding (n : ℕ) : Bytes := replicate (align4 n - n) 0

def patch (buf : Bytes) (start : ℕ) (data : Bytes) : Bytes := buf.take start ++ data ++ buf.drop (start + data.length)

/-- A message under construction: header, fixed struct, attributes. -/
structure Msg where
  buf : Bytes

namespace Msg

def new (msgType flags seq : ℕ) : Msg :=
  ⟨le 4 0 ++ le 2 msgType ++ le 2 (0x01 ||| 0x04 ||| flags) ++ le 4 seq ++ le 4 0⟩

def raw (m : Msg) (data : Bytes) : Msg := ⟨m.buf ++ data ++ padding (m.buf ++ data).length⟩

def ifinfomsg (m : Msg) (family : UInt8) (index flags change : ℕ) : Msg :=
  m.raw ([family, 0] ++ le 2 0 ++ le 4 index ++ le 4 flags ++ le 4 change)

def attr (m : Msg) (kind : ℕ) (data : Bytes) : Msg := raw ⟨m.buf ++ le 2 (4 + data.length) ++ le 2 kind⟩ data

/-- Begins a nested attribute, with the offset to pass to `endNested`. -/
def beginNested (m : Msg) (kind : ℕ) : Msg × ℕ := (⟨m.buf ++ le 2 0 ++ le 2 (kind ||| nlaFNested)⟩, m.buf.length)

def endNested (m : Msg) (start : ℕ) : Msg := ⟨patch m.buf start (le 2 (m.buf.length - start))⟩

def finish (m : Msg) : Bytes := patch m.buf 0 (le 4 m.buf.length)

end Msg

/-- The (type, data) attributes in `buf` from `off`. -/
def attrs (buf : Bytes) (off : ℕ) : List (ℕ × Bytes) :=
  if off + 4 ≤ buf.length then
    let len := ofLe ((buf.drop off).take 2)
    let kind := ofLe ((buf.drop (off + 2)).take 2) &&& nlaTypeMask
    if len < 4 ∨ buf.length < off + len then []
    else (kind, (buf.drop (off + 4)).take (len - 4)) :: attrs buf (off + align4 len)
  else []
termination_by buf.length - off
decreasing_by
  unfold align4
  omega

/-- The altnames in a property list, each up to its NUL. -/
def altnames (data : Bytes) : List Bytes :=
  (attrs data 0).filterMap fun p => if p.1 = iflaAltIfname then some (p.2.takeWhile (· ≠ 0)) else none

/-- What `names_left` makes of the reply: an ifinfomsg, 16 bytes, then the link's attributes. -/
def namesLeft (reply : Bytes) : List Bytes × Bool :=
  (attrs reply 16).foldl (fun left a =>
    if a.1 = iflaPropList then (left.1 ++ altnames a.2, left.2)
    else if a.1 = iflaIfalias then (left.1, a.2.head?.any (· ≠ 0)) else left) ([], false)

def chunks (k : ℕ) (l : List α) : List (List α) :=
  if _h : l = [] ∨ k = 0 then [] else l.take k :: chunks k (l.drop k)
termination_by l.length
decreasing_by
  have hl := length_pos_iff.mpr (not_or.mp _h).1
  rw [length_drop]
  omega

def removal (idx : ℕ) (names : List Bytes) : Bytes :=
  let m := (Msg.new rtmDellinkprop 0 1).ifinfomsg 0 idx 0 0
  let list := m.beginNested iflaPropList
  ((names.foldl (fun m n => m.attr iflaAltIfname (n ++ [0])) list.1).endNested list.2).finish

/-- The requests that remove altnames from a link, 64 to a request. -/
def delAltnames (idx : ℕ) (names : List Bytes) : List Bytes := (chunks 64 names).map (removal idx)

/-- Attributes one behind the other, each with its data or with those nested in it. -/
inductive Tree
  | nil
  | leaf (kind : ℕ) (data : Bytes) (rest : Tree)
  | nest (kind : ℕ) (inner rest : Tree)

namespace Tree

variable {m : Msg} {kind : ℕ} {data : Bytes} {t : Tree}

def write : Tree → Msg → Msg
  | nil, m => m
  | leaf kind data rest, m => rest.write (m.attr kind data)
  | nest kind inner rest, m => rest.write ((inner.write (m.beginNested kind).1).endNested (m.beginNested kind).2)

def entry (kind : ℕ) (data : Bytes) : Bytes := le 2 (4 + data.length) ++ le 2 kind ++ data ++ padding data.length

def bytes : Tree → Bytes
  | nil => []
  | leaf kind data rest => entry kind data ++ rest.bytes
  | nest kind inner rest => entry (kind ||| nlaFNested) inner.bytes ++ rest.bytes

def Fits : Tree → Prop
  | nil => True
  | leaf kind data rest => kind < 2 ^ 14 ∧ 4 + data.length < 2 ^ 16 ∧ rest.Fits
  | nest kind inner rest => kind < 2 ^ 14 ∧ 4 + inner.bytes.length < 2 ^ 16 ∧ inner.Fits ∧ rest.Fits

/-- The attributes found are those of the tree, and so inside each that is nested. -/
def Read : Tree → List (ℕ × Bytes) → Prop
  | nil, found => found = []
  | leaf kind data rest, found => ∃ more, found = (kind, data) :: more ∧ rest.Read more
  | nest kind inner rest, found =>
    ∃ data more, found = (kind, data) :: more ∧ inner.Read (attrs data 0) ∧ rest.Read more

lemma length_entry (kind : ℕ) (data : Bytes) : (entry kind data).length = align4 (4 + data.length) := by
  simp only [entry, padding, length_append, length_le, length_replicate, align4]
  omega

lemma length_bytes_mod (t : Tree) : t.bytes.length % 4 = 0 := by
  induction t with
  | nil => rfl
  | leaf _ _ _ ih | nest _ _ _ _ ih =>
    rw [bytes, length_append, length_entry, align4]
    omega

lemma buf_attr (hm : m.buf.length % 4 = 0) : (m.attr kind data).buf = m.buf ++ entry kind data := by
  have hpad : padding (m.buf.length + (2 + (2 + data.length))) = padding data.length := by
    unfold padding align4
    congr 1
    omega
  simp [Msg.attr, Msg.raw, entry, hpad]

lemma patch_append {old : Bytes} (h : old.length = data.length) (pre post : Bytes) :
    patch (pre ++ old ++ post) pre.length data = pre ++ data ++ post := by
  rw [patch, ← h, ← length_append, drop_left, append_assoc pre old, take_left]

/-- What a tree writes is put behind the message as it is. -/
lemma buf_write (t : Tree) (hm : m.buf.length % 4 = 0) : (t.write m).buf = m.buf ++ t.bytes := by
  induction t generalizing m with
  | nil => exact (append_nil _).symm
  | leaf kind data rest ih =>
    rw [write, ih, buf_attr hm, bytes, append_assoc]
    rw [buf_attr hm, length_append, length_entry, align4]
    omega
  | nest kind inner rest ihi ih =>
    have hpad : padding inner.bytes.length = [] := by
      have := inner.length_bytes_mod
      rw [padding, align4, show (inner.bytes.length + 3) / 4 * 4 - inner.bytes.length = 0 by omega, replicate_zero]
    have hbegun : (inner.write (m.beginNested kind).1).buf =
        m.buf ++ le 2 0 ++ (le 2 (kind ||| nlaFNested) ++ inner.bytes) := by
      rw [ihi (by simp [Msg.beginNested]; omega), Msg.beginNested, append_assoc]
    have hnested : ((inner.write (m.beginNested kind).1).endNested (m.beginNested kind).2).buf =
        m.buf ++ entry (kind ||| nlaFNested) inner.bytes := by
      rw [Msg.endNested, hbegun, Msg.beginNested, patch_append (by simp)]
      simp [entry, hpad]
      congr 1
      omega
    rw [write, ih, hnested, bytes, append_assoc]
    rw [hnested, length_append, length_entry, align4]
    omega

lemma ofLe_le_two {n : ℕ} (h : n < 2 ^ 16) : ofLe (le 2 n) = n := by
  simp only [le, ofLe, UInt8.toNat_ofNat']
  omega

lemma attrs_entry (hk : kind < 2 ^ 16) (hd : 4 + data.length < 2 ^ 16) {pre post buf : Bytes}
    (hbuf : pre ++ entry kind data ++ post = buf) :
    attrs buf pre.length = (kind % 2 ^ 14, data) :: attrs buf (pre ++ entry kind data).length := by
  have hfirst : (buf.drop pre.length).take 2 = le 2 (4 + data.length) := by simp [← hbuf, entry]
  have hsecond : (buf.drop (pre.length + 2)).take 2 = le 2 kind := by
    simp [← hbuf, entry, take_append, drop_append]
  have hdata : (buf.drop (pre.length + 4)).take data.length = data := by
    simp [← hbuf, entry, drop_append, drop_eq_nil_of_le]
  have hlen : pre.length + (4 + data.length) ≤ buf.length := by
    rw [← hbuf, length_append, length_append, length_entry, align4]
    omega
  rw [attrs, if_pos (by omega), hfirst, hsecond, ofLe_le_two hd, ofLe_le_two hk, if_neg (by omega), nlaTypeMask,
    Nat.and_two_pow_sub_one_eq_mod kind 14, Nat.add_sub_cancel_left, hdata, length_append, length_entry]

lemma read_bytes (h : t.Fits) (pre : Bytes) : t.Read (attrs (pre ++ t.bytes) pre.length) := by
  induction t generalizing pre with
  | nil => rw [bytes, append_nil, attrs, if_neg (by omega), Read]
  | leaf kind data rest ih =>
    obtain ⟨hk, hd, hrest⟩ := h
    refine ⟨_, ?_, ih hrest (pre ++ entry kind data)⟩
    rw [bytes, ← append_assoc, attrs_entry (by omega) hd rfl, Nat.mod_eq_of_lt hk]
  | nest kind inner rest ihi ih =>
    obtain ⟨hk, hd, hinner, hrest⟩ := h
    have hflag : kind ||| nlaFNested = 2 ^ 15 * 1 + kind := by
      rw [Nat.two_pow_add_eq_or_of_lt (by omega), Nat.lor_comm]
      rfl
    refine ⟨inner.bytes, _, ?_, ihi hinner [], ih hrest (pre ++ entry (kind ||| nlaFNested) inner.bytes)⟩
    rw [bytes, ← append_assoc, attrs_entry (by omega) hd rfl, hflag, show (2 ^ 15 * 1 + kind) % 2 ^ 14 = kind by omega]

lemma finish_write (t : Tree) (hm : m.buf.length % 4 = 0) (h4 : 4 ≤ m.buf.length) :
    (t.write m).finish = le 4 (m.buf ++ t.bytes).length ++ m.buf.drop 4 ++ t.bytes := by
  rw [Msg.finish, buf_write t hm, patch, take_zero, nil_append, length_le, zero_add, drop_append_of_le_length h4,
    append_assoc]

/-- Attributes written behind any header are read back, at every depth. -/
theorem attributes_round_trip (h : t.Fits) (hm : m.buf.length % 4 = 0) (h4 : 4 ≤ m.buf.length) :
    t.Read (attrs (t.write m).finish m.buf.length) := by
  have hread := read_bytes h (le 4 (m.buf ++ t.bytes).length ++ m.buf.drop 4)
  rwa [← finish_write t hm h4, length_append, length_le, length_drop, Nat.add_sub_cancel' h4] at hread

theorem attributes_round_trip_kind : (nest 18 (leaf 1 [98, 0] nil) nil).Read
    (attrs ((nest 18 (leaf 1 [98, 0] nil) nil).write (Msg.new 16 0 1)).finish 16) :=
  attributes_round_trip (by simp [Fits, bytes, length_entry, align4]) rfl (by decide)

end Tree

lemma flatten_chunks {k : ℕ} (hk : k ≠ 0) (l : List α) : (chunks k l).flatten = l := by
  fun_induction chunks k l with grind [take_append_drop]

lemma length_of_mem_chunks {k : ℕ} {l part : List α} (h : part ∈ chunks k l) : part.length ≤ k := by
  fun_induction chunks k l with grind [length_take_le]

variable {names : List Bytes}

def propList (names : List Bytes) : Tree := names.foldr (fun n t => .leaf iflaAltIfname (n ++ [0]) t) .nil

lemma write_propList (m : Msg) :
    (propList names).write m = names.foldl (fun m n => m.attr iflaAltIfname (n ++ [0])) m := by
  induction names generalizing m with
  | nil => rfl
  | cons n names ih => exact ih _

lemma propList_fits (h : ∀ n ∈ names, 0 ∉ n ∧ n.length ≤ 127) :
    (propList names).Fits ∧ (propList names).bytes.length ≤ 132 * names.length := by
  induction names with
  | nil => exact ⟨trivial, Nat.le_refl _⟩
  | cons n names ih =>
    obtain ⟨hn, hnames⟩ := forall_mem_cons.mp h
    obtain ⟨hfits, hlen⟩ := ih hnames
    have hone : (n ++ [0]).length ≤ 128 := by simpa using Nat.lt_succ_of_le hn.2
    refine ⟨⟨by decide, by omega, hfits⟩, ?_⟩
    change (Tree.entry _ _ ++ (propList names).bytes).length ≤ _
    rw [length_append, Tree.length_entry, length_cons, align4]
    omega

lemma altnames_read (h : ∀ n ∈ names, 0 ∉ n ∧ n.length ≤ 127) {data : Bytes}
    (hread : (propList names).Read (attrs data 0)) : altnames data = names := by
  unfold altnames
  generalize attrs data 0 = found at hread
  induction names generalizing found with
  | nil => rw [show found = [] from hread, filterMap_nil]
  | cons n names ih =>
    obtain ⟨hn, hnames⟩ := forall_mem_cons.mp h
    obtain ⟨more, rfl, hmore⟩ := hread
    have hname : (n ++ [0]).takeWhile (· ≠ 0) = n := by
      rw [takeWhile_append_of_pos fun b hb => decide_eq_true (ne_of_mem_of_not_mem hb hn.1)]
      simp
    rw [filterMap_cons, if_pos rfl, hname, ih hnames more hmore]

lemma namesLeft_removal (idx : ℕ) (hlen : names.length ≤ 64) (h : ∀ n ∈ names, 0 ∉ n ∧ n.length ≤ 127) :
    (namesLeft ((removal idx names).drop 16)).1 = names := by
  obtain ⟨hfits, hbytes⟩ := propList_fits h
  let m := (Msg.new rtmDellinkprop 0 1).ifinfomsg 0 idx 0 0
  let t : Tree := .nest iflaPropList (propList names) .nil
  have hm : m.buf.length = 32 := by simp [m, Msg.ifinfomsg, Msg.raw, Msg.new, padding, align4]
  have hwrite : removal idx names = (t.write m).finish := by
    simp only [t, Tree.write, write_propList]
    rfl
  have hrequest : (removal idx names).drop 16 = m.buf.drop 16 ++ t.bytes := by
    rw [hwrite, t.finish_write (by omega) (by omega), append_assoc, drop_append, length_le,
      drop_eq_nil_of_le (by simp), nil_append, drop_append_of_le_length (by simp [hm]), drop_drop]
  have ht : t.Fits := ⟨by decide, by omega, hfits, trivial⟩
  obtain ⟨data, more, hfound, hinner, rfl⟩ := Tree.read_bytes ht (m.buf.drop 16)
  rw [length_drop, hm] at hfound
  rw [namesLeft, hrequest, hfound, foldl_cons, foldl_nil, if_pos rfl]
  exact altnames_read h hinner

/-- The requests `del_altnames` sends name every altname once, in order, and no other. -/
theorem altnames_all_removed (idx : ℕ) (h : ∀ n ∈ names, 0 ∉ n ∧ n.length ≤ 127) :
    (delAltnames idx names).flatMap (fun r => (namesLeft (r.drop 16)).1) = names := by
  have hone : ∀ part ∈ chunks 64 names, (namesLeft ((removal idx part).drop 16)).1 = part := by
    intro part hpart
    refine namesLeft_removal idx (length_of_mem_chunks hpart) fun n hn => h n ?_
    rw [← flatten_chunks (k := 64) (by decide) names]
    exact mem_flatten_of_mem hpart hn
  rw [delAltnames, flatMap_map, flatMap_congr hone, flatMap_id', flatten_chunks (by decide)]

/-- One name more than a request carries. -/
theorem altnames_all_removed_two : (delAltnames 3 (replicate 65 [101])).length = 2 ∧
    (delAltnames 3 (replicate 65 [101])).flatMap (fun r => (namesLeft (r.drop 16)).1) = replicate 65 [101] :=
  ⟨by decide +kernel, altnames_all_removed 3 (by decide)⟩

end Kryptik.Kryptikd.Netlink
