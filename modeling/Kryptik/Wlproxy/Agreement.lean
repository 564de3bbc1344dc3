import Kryptik.Wlproxy.Compositor

namespace Kryptik.Wlproxy

open Lib Prog Tables Wire Protocol View IdReuse List Function Coming

/-- What a message to the compositor asks for: nothing, or that an id is held or made an object. -/
abbrev Asked := Option (ℕ × Made Interface)

namespace Asked

def about (plan : List Asked) (id : ℕ) : List (Made Interface) :=
  plan.filterMap (fun a => a.bind (fun (x, u) => if x = id then some u else none))

def after (map : ℕ → Option Interface) : Asked → ℕ → Option Interface
  | some (x, .made i) => Function.update map x (some i)
  | _ => map

lemma after_cases (a : Asked) (x : ℕ) :
    (∃ i, a = some (x, .made i) ∧ ∀ map, after map a x = some i) ∨ ∀ map, after map a x = map x := by
  match a with
  | none | some (_, .held) => exact .inr fun _ => rfl
  | some (y, .made i) =>
    by_cases hx : x = y
    · exact .inl ⟨i, hx ▸ rfl, fun _ => hx ▸ update_self ..⟩
    · exact .inr fun _ => update_of_ne hx _ _

/-- Each new id is one of those used or the next, and in the end so many are used. -/
def Dense : ℕ → List Asked → ℕ → Prop
  | used, [], total => used = total
  | used, none :: plan, total => Dense used plan total
  | used, some (x, _) :: plan, total => x ≤ used ∧ Dense (max used (x + 1)) plan total

lemma about_cons (x : ℕ) (u : Made Interface) (plan : List Asked) (id : ℕ) :
    about (some (x, u) :: plan) id = if x = id then u :: about plan id else about plan id := by
  by_cases hx : x = id
  · simp [about, hx]
  · simp [about, hx]

lemma foldl_after (map : ℕ → Option Interface) (plan : List Asked) (id : ℕ) :
    plan.foldl (fun map a => after map a) map id = (about plan id).foldl Made.after (map id) := by
  induction plan generalizing map with
  | nil => rfl
  | cons a plan ih =>
    rw [foldl_cons, ih]
    match a with
    | none => rfl
    | some (x, .held) =>
      rw [about_cons]
      split <;> rfl
    | some (x, .made i) =>
      rw [about_cons]
      split
      · rename_i hx
        rw [← hx, after, update_self]
        rfl
      · rename_i hx
        rw [after, update_of_ne (Ne.symm hx)]

lemma about_append (plan : List Asked) (a : Asked) (id : ℕ) :
    about (plan ++ [a]) id = about plan id ++ about [a] id := filterMap_append ..

lemma Dense.concat {used total : ℕ} {plan : List Asked} (h : Dense used plan total) (a : Asked)
    (ha : ∀ x u, a = some (x, u) → x ≤ total) :
    Dense used (plan ++ [a]) (a.elim total (fun y => max total (y.1 + 1))) := by
  induction plan generalizing used with
  | nil =>
    obtain rfl : used = total := h
    cases a with
    | none => exact rfl
    | some y => exact ⟨ha y.1 y.2 rfl, rfl⟩
  | cons b plan ih =>
    cases b with
    | none => exact ih h
    | some y => exact ⟨h.1, ih h.2⟩

end Asked

def Asks (created : Option (ℕ × String)) : Asked → Prop
  | none => created = none
  | some (_, .held) => False
  | some (x, .made i) => x < 2 ^ 32 ∧ created = some (x, i.name)

/-- What a queued message asks for, read with the object map it was queued with. -/
inductive Describes : Sent → Asked → Prop
  | held {msg : Bytes} {objects : Objects} {id : ℕ} : id < 2 ^ 32 → (syncOn id).finish = some msg →
      Describes ⟨.placeholder, msg, objects⟩ (some (id, .held))
  | request {sent : Sent} {a : Asked} : sent.origin ≠ .placeholder →
      (∀ call, Names.call sent.objects.forwarded sent.bytes = some call → Asks call.created a) →
      (a ≠ none → (Names.call sent.objects.forwarded sent.bytes).isSome) → Describes sent a

/-- What is under way agrees with the compositor's objects once it gets there: an object it has then is what the
proxy's map had it for, and one the map had and it has not is destroyed. -/
def Agree (map : ℕ → Option Interface) (destroyed : List ℕ) : List (Sent × Asked) → Prop
  | [] => True
  | (sent, a) :: rest => (sent.origin ≠ .placeholder →
      (∀ x i, a.after map x = some i → sent.objects.forwarded x = some i) ∧
      ∀ x i, sent.objects.forwarded x = some i → a.after map x = some i ∨ x ∈ destroyed) ∧
    Agree (a.after map) destroyed rest

namespace Agree

variable {map map' : ℕ → Option Interface} {destroyed destroyed' : List ℕ} {l : List (Sent × Asked)}

lemma shrink (h : Agree map destroyed l) (hmap : ∀ x i, map' x = some i → map x = some i)
    (hends : ∀ x i, map x = some i → map' x = some i ∨ x ∈ destroyed') (hsub : destroyed ⊆ destroyed') :
    Agree map' destroyed' l := by
  induction l generalizing map map' with
  | nil => exact trivial
  | cons e l ih =>
    obtain ⟨sent, a⟩ := e
    have hafter (x : ℕ) (i : Interface) : a.after map' x = some i → a.after map x = some i := by
      obtain ⟨j, -, hj⟩ | hj := a.after_cases x
      · rw [hj, hj]
        exact fun h => h
      · rw [hj, hj]
        exact hmap x i
    have hback (x : ℕ) (i : Interface) : a.after map x = some i → a.after map' x = some i ∨ x ∈ destroyed' := by
      obtain ⟨j, -, hj⟩ | hj := a.after_cases x
      · rw [hj, hj]
        exact .inl
      · rw [hj, hj]
        exact hends x i
    refine ⟨fun ho => ⟨fun x i hx => (h.1 ho).1 x i (hafter x i hx), fun x i hx => ?_⟩, ih h.2 hafter hback⟩
    obtain hm | hd := (h.1 ho).2 x i hx
    · exact hback x i hm
    · exact .inr (hsub hd)

lemma forget {y : ℕ} (h : Agree map destroyed l) (hy : (map y).isSome) : Agree map (destroyed.filter (· ≠ y)) l := by
  induction l generalizing map with
  | nil => exact trivial
  | cons e l ih =>
    obtain ⟨sent, a⟩ := e
    have hsome : (a.after map y).isSome := by
      obtain ⟨j, -, hj⟩ | hj := a.after_cases y
      · rw [hj]
        rfl
      · rw [hj]
        exact hy
    refine ⟨fun ho => ⟨(h.1 ho).1, fun x i hx => ?_⟩, ih h.2 hsome⟩
    by_cases hxy : x = y
    · subst hxy
      obtain ⟨j, hj⟩ := Option.isSome_iff_exists.mp hsome
      have := (h.1 ho).1 x j hj
      rw [hx] at this
      exact .inl (hj.trans this.symm)
    · obtain hm | hd := (h.1 ho).2 x i hx
      · exact .inl hm
      · exact .inr (mem_filter.mpr ⟨hd, by simpa using hxy⟩)

lemma concat (h : Agree map destroyed l) (e : Sent × Asked)
    (he : Agree (l.foldl (fun map e => e.2.after map) map) destroyed [e]) : Agree map destroyed (l ++ [e]) := by
  induction l generalizing map with
  | nil => exact he
  | cons e' l ih => exact ⟨h.1, ih h.2 he⟩

end Agree

namespace Coming

def tags (flight : List Coming) (id : ℕ) : List Tag := (flight.filter (·.id = id)).map Coming.tag

lemma tags_cons (e : Coming) (flight : List Coming) (id : ℕ) :
    tags (e :: flight) id = if e.id = id then e.tag :: tags flight id else tags flight id := by
  by_cases he : e.id = id
  · simp [tags, he]
  · simp [tags, he]

lemma tags_append (flight more : List Coming) (id : ℕ) :
    tags (flight ++ more) id = tags flight id ++ tags more id := by
  simp [tags]

def Formed (e : Coming) : Prop := ∃ h, Header.parse e.bytes = .ok h ∧ h.size = e.bytes.length ∧
  match e.tag with
  | .answer => h.object = e.id
  | .event => h.object = e.id ∧ ¬ (h.object = wlDisplay ∧ h.opcode = wlDisplayDeleteId)
  | .answered | .deleted => h.object = wlDisplay ∧ h.opcode = wlDisplayDeleteId ∧
      readArgs ArgReader.u32 (e.bytes.drop headerLen) = .ok e.id

lemma finish_word (object opcode n : ℕ) :
    ((MessageWriter.new object opcode).u32 n).finish = some ((MessageWriter.new object opcode).u32 n).bytes := by
  rfl

lemma parse_word {object opcode : ℕ} (n : ℕ) (ho : object < 2 ^ 32) (hop : opcode < 2 ^ 16) :
    ∃ h, Header.parse ((MessageWriter.new object opcode).u32 n).bytes = .ok h ∧ h.object = object ∧
      h.opcode = opcode ∧ h.size = ((MessageWriter.new object opcode).u32 n).bytes.length ∧
      readArgs ArgReader.u32 (((MessageWriter.new object opcode).u32 n).bytes.drop headerLen) = .ok (n % 2 ^ 32) := by
  obtain ⟨h, hp, hobj, hopc, hs, hb⟩ := MessageWriter.parse_finish (finish_word object opcode n) hop
  refine ⟨h, hp, hobj.trans (Nat.mod_eq_of_lt ho), hopc, hs, ?_⟩
  have hw : ArgReader.u32 (Words.bytes n ++ []) = .ok (n % 2 ^ 32, []) := u32_bytes n
  rw [hb, readArgs, show ((MessageWriter.new object opcode).u32 n).body = Words.bytes n ++ [] by
    simp [MessageWriter.u32, MessageWriter.new], hw]
  rfl

lemma formed_deleteId {id : ℕ} (t : Tag) (ht : t = .answered ∨ t = .deleted) (hid : id < 2 ^ 32) :
    Formed ⟨t, id, deleteId id⟩ := by
  obtain ⟨h, hp, ho, hop, hs, hr⟩ := parse_word id (show wlDisplay < 2 ^ 32 by decide)
    (show wlDisplayDeleteId < 2 ^ 16 by decide)
  rw [Nat.mod_eq_of_lt hid] at hr
  refine ⟨h, hp, hs, ?_⟩
  obtain rfl | rfl := ht
  · exact ⟨ho, hop, hr⟩
  · exact ⟨ho, hop, hr⟩

lemma formed_done {id data : ℕ} (t : Tag) (ht : t = .answer ∨ t = .event) (hid : id < 2 ^ 32) :
    Formed ⟨t, id, done id data⟩ := by
  obtain ⟨h, hp, ho, hop, hs, _⟩ := parse_word data hid (show 0 < 2 ^ 16 by decide)
  refine ⟨h, hp, hs, ?_⟩
  obtain rfl | rfl := ht
  · exact ho
  · refine ⟨ho, fun hd => ?_⟩
    rw [hop] at hd
    cases hd.2

lemma formed_answers {id data : ℕ} (origin : Origin) (hid : id < 2 ^ 32) :
    ∀ e ∈ answers origin id data, e.Formed := by
  intro e he
  unfold answers at he
  split at he
  · obtain rfl | rfl := mem_pair.mp he
    · exact formed_done _ (.inl rfl) hid
    · exact formed_deleteId _ (.inl rfl) hid
  · obtain rfl | rfl := mem_pair.mp he
    · exact formed_done _ (.inr rfl) hid
    · exact formed_deleteId _ (.inr rfl) hid

end Coming

/-- What the proxy, the compositor and the messages between them have to do with one another. -/
structure Underway (o : Objects) (placeholders : Table ℕ ℕ) (c : Compositor) (flight : List Coming)
    (ahead : List Sent) (plan : List Asked) : Prop where
  described : List.Forall₂ Describes ahead plan
  shape : ∀ id, Shape (o.forwarded id) (c.map id) (Asked.about plan id) (Coming.tags flight id)
    ((placeholders.lookup id).getD 0)
  dense : Asked.Dense c.slots plan o.client.length
  agree : Agree c.map c.destroyed (ahead.zip plan)
  ended : ∀ id, .deleted ∈ Coming.tags flight id → id ∈ c.destroyed
  display : c.map wlDisplay = some .wlDisplay
  unplaced : wlDisplay ∉ placeholders
  small : ∀ id i, c.map id = some i → id < 2 ^ 32

namespace Underway

variable {o o' : Objects} {placeholders placeholders' : Table ℕ ℕ} {c : Compositor} {flight : List Coming}
  {ahead : List Sent} {plan : List Asked} {sent : Sent} {a : Asked} {id : ℕ} {i : Interface}

lemma steady (h : Underway o placeholders c flight ahead plan) (hs : o'.client.length = o.client.length)
    (hf : o'.forwarded = o.forwarded) : Underway o' placeholders c flight ahead plan :=
  ⟨h.described, hf ▸ h.shape, hs ▸ h.dense, h.agree, h.ended, h.display, h.unplaced, h.small⟩

lemma concat (h : Underway o placeholders c flight ahead plan) (hsent : Describes sent a)
    (horigin : sent.origin ≠ .placeholder → sent.objects.forwarded = o'.forwarded)
    (hshape : ∀ id, Shape (o'.forwarded id) (c.map id) (Asked.about (plan ++ [a]) id) (tags flight id)
      ((placeholders'.lookup id).getD 0))
    (hdense : Asked.Dense c.slots (plan ++ [a]) o'.client.length) (hp : wlDisplay ∉ placeholders') :
    Underway o' placeholders' c flight (ahead ++ [sent]) (plan ++ [a]) := by
  have hlen := h.described.length_eq
  refine ⟨?_, hshape, hdense, ?_, h.ended, h.display, hp, h.small⟩
  · exact rel_append h.described (.cons hsent .nil)
  -- once all the messages are taken the compositor's objects are those of the map then, or destroyed
  have hfinal (x : ℕ) : a.after ((ahead.zip plan).foldl (fun map e => e.2.after map) c.map) x =
      (Asked.about (plan ++ [a]) x).foldl Made.after (c.map x) := by
    rw [← Asked.foldl_after, foldl_append, foldl_cons, foldl_nil,
      ← foldl_map (f := Prod.snd) (g := fun map a => Asked.after map a), map_snd_zip hlen.ge]
  rw [zip_append hlen]
  refine h.agree.concat _ ⟨fun ho => ⟨fun x j hx => ?_, fun x j hx => ?_⟩, trivial⟩
  · rw [hfinal x] at hx
    rw [horigin ho]
    obtain he | ⟨he, -⟩ := (hshape x).arrives
    · exact he.symm.trans hx
    · rw [he] at hx
      cases hx
  · rw [horigin ho] at hx
    rw [hfinal x]
    obtain he | ⟨-, hd⟩ := (hshape x).arrives
    · exact .inl (he.trans hx)
    · exact .inr (h.ended x hd)

lemma passes (h : Underway o placeholders c flight ahead plan) (hsent : Describes sent none)
    (ho : sent.objects.forwarded = o.forwarded) :
    Underway o placeholders c flight (ahead ++ [sent]) (plan ++ [none]) := by
  refine h.concat hsent (fun _ => ho) (fun id => ?_) (h.dense.concat none fun _ _ ha => by cases ha) h.unplaced
  rw [Asked.about_append, show Asked.about [none] id = [] from rfl, append_nil]
  exact h.shape id

lemma display_forwarded (h : Underway o placeholders c flight ahead plan) :
    o.forwarded wlDisplay = some .wlDisplay := by
  have hs := h.shape wlDisplay
  rw [h.display] at hs
  exact hs.here_of_there

lemma about_one (id : ℕ) (u : Made Interface) (x : ℕ) :
    Asked.about [some (id, u)] x = if id = x then [u] else [] := Asked.about_cons id u [] x

lemma makes (h : Underway o placeholders c flight ahead plan) (hf : Fresh id i o o')
    (hi : Policy.served i.name = false) (hsent : Describes sent (some (id, .made i)))
    (ho : sent.objects.forwarded = o'.forwarded) :
    Underway o' placeholders c flight (ahead ++ [sent]) (plan ++ [some (id, .made i)]) := by
  refine h.concat hsent (fun _ => ho) (fun x => ?_) ?_ h.unplaced
  · rw [Asked.about_append, about_one, hf.forwarded, if_neg (by rw [hi]; decide)]
    have hx := h.shape x
    by_cases hid : id = x
    · subst hid
      rw [if_pos rfl, update_self]
      rw [hf.free] at hx
      exact hx.create i
    · rw [if_neg hid, append_nil, update_of_ne (Ne.symm hid)]
      exact hx
  · rw [hf.slots]
    exact h.dense.concat (some (id, .made i)) fun y u he => by cases he; exact hf.dense

lemma holds (h : Underway o placeholders c flight ahead plan) (hf : Fresh id i o o')
    (hi : Policy.served i.name = true) (hsent : Describes sent (some (id, .held)))
    (ho : sent.origin = .placeholder) :
    Underway o' (placeholders.insert id ((placeholders.lookup id).getD 0 + 1)) c flight (ahead ++ [sent])
      (plan ++ [some (id, .held)]) := by
  have hid : wlDisplay ≠ id := by
    rintro rfl
    cases hf.free.symm.trans h.display_forwarded
  refine h.concat hsent (fun hne => absurd ho hne) (fun x => ?_) ?_ ?_
  · rw [Asked.about_append, about_one, hf.forwarded, if_pos hi, lookup_insert_if]
    have hx := h.shape x
    by_cases hid : id = x
    · subst hid
      rw [if_pos rfl, if_pos rfl, update_self]
      rw [hf.free] at hx
      exact hx.reserve
    · rw [if_neg hid, if_neg (Ne.symm hid), append_nil, update_of_ne (Ne.symm hid)]
      exact hx
  · rw [hf.slots]
    exact h.dense.concat (some (id, .held)) fun y u he => by cases he; exact hf.dense
  · rw [AList.mem_insert, not_or]
    exact ⟨hid, h.unplaced⟩

variable {more : List Asked} {rest : List Sent}

lemma taken (h : Underway o placeholders c flight (sent :: rest) (none :: more)) :
    Underway o placeholders c flight rest more := by
  have hd := h.described
  rw [forall₂_cons] at hd
  exact ⟨hd.2, h.shape, h.dense, h.agree.2, h.ended, h.display, h.unplaced, h.small⟩

lemma asked {u : Made Interface} (h : Underway o placeholders c flight (sent :: rest) (some (id, u) :: more)) :
    c.map id = none ∧ id ≤ c.slots := by
  have hs := h.shape id
  rw [Asked.about_cons, if_pos rfl] at hs
  exact ⟨hs.free, h.dense.1⟩

lemma created (h : Underway o placeholders c flight (sent :: rest) (some (id, .made i) :: more))
    (hid : id < 2 ^ 32) : Underway o placeholders (c.create id i) flight rest more := by
  have hd := h.described
  rw [forall₂_cons] at hd
  have hself := h.shape id
  rw [Asked.about_cons, if_pos rfl] at hself
  have hupdate {x : ℕ} (hx : x ≠ id) : (c.create id i).map x = c.map x := update_of_ne hx _ _
  have hnew : (c.create id i).map id = some i := update_self ..
  refine ⟨hd.2, fun x => ?_, h.dense.2, ?_, fun x hx => ?_, ?_, h.unplaced, fun x j hx => ?_⟩
  · by_cases hx : x = id
    · rw [hx, hnew]
      exact hself.make
    · have hs := h.shape x
      rw [Asked.about_cons, if_neg (Ne.symm hx)] at hs
      rw [hupdate hx]
      exact hs
  · exact h.agree.2.forget (by rw [show Asked.after c.map (some (id, .made i)) id = some i from hnew]; rfl)
  · have hne : x ≠ id := fun he => hself.not_deleted (he ▸ hx)
    exact mem_filter.mpr ⟨h.ended x hx, by simpa using hne⟩
  · rw [hupdate, h.display]
    intro he
    have hfree := h.asked.1
    rw [← he, h.display] at hfree
    cases hfree
  · by_cases hxid : x = id
    · exact hxid ▸ hid
    · exact h.small x j (hupdate hxid ▸ hx)

lemma tags_pair (t t' : Tag) (b b' : Bytes) (id x : ℕ) :
    tags [⟨t, id, b⟩, ⟨t', id, b'⟩] x = if id = x then [t, t'] else [] := by
  rw [tags_cons, tags_cons]
  split <;> rfl

lemma answered {u : Made Interface} (h : Underway o placeholders c flight (sent :: rest) (some (id, u) :: more))
    (hu : u = .held ↔ sent.origin = .placeholder) (data : ℕ) :
    Underway o placeholders (c.spend id) (flight ++ Coming.answers sent.origin id data) rest more := by
  have hd := h.described
  rw [forall₂_cons] at hd
  have hfree := h.asked.1
  have hself := h.shape id
  rw [Asked.about_cons, if_pos rfl] at hself
  have htags (x : ℕ) : tags (Coming.answers sent.origin id data) x =
      if id = x then (if sent.origin = .placeholder then [.answer, .answered] else [.event, .deleted]) else [] := by
    unfold Coming.answers
    split
    · exact tags_pair ..
    · exact tags_pair ..
  refine ⟨hd.2, fun x => ?_, h.dense.2, ?_, fun x hx => ?_, h.display, h.unplaced, h.small⟩
  · rw [tags_append, htags]
    by_cases hx : id = x
    · subst hx
      rw [if_pos rfl]
      show Shape _ (c.map id) _ _ _
      cases u with
      | held =>
        rw [if_pos (hu.mp rfl)]
        exact hself.hold
      | made i =>
        have hno : sent.origin ≠ .placeholder := fun ho => by cases hu.mpr ho
        rw [if_neg hno, hfree]
        exact hself.pass
    · have hs := h.shape x
      rw [Asked.about_cons, if_neg hx] at hs
      rw [if_neg hx, append_nil]
      exact hs
  · refine h.agree.2.shrink (fun x j hx => ?_) (fun x j hx => ?_) (subset_cons_self _ _)
    · rcases Asked.after_cases (some (id, u)) x with ⟨i, he, -⟩ | he
      · cases he
        cases hfree.symm.trans hx
      · exact (he _).trans hx
    · rcases Asked.after_cases (some (id, u)) x with ⟨i, he, -⟩ | he
      · cases he
        exact .inr mem_cons_self
      · exact .inl ((he _).symm.trans hx)
  · rw [tags_append, htags, mem_append] at hx
    obtain hx | hx := hx
    · exact mem_cons_of_mem _ (h.ended x hx)
    · split at hx
      · rename_i he
        exact he ▸ mem_cons_self
      · cases hx

lemma event (h : Underway o placeholders c flight ahead plan) (hi : c.map id = some i) (msg : Bytes) :
    Underway o placeholders c (flight ++ [⟨.event, id, msg⟩]) ahead plan := by
  refine ⟨h.described, fun x => ?_, h.dense, h.agree, fun x hx => ?_, h.display, h.unplaced, h.small⟩
  · have hs := h.shape x
    rw [tags_append, tags_cons]
    by_cases hx : id = x
    · subst hx
      rw [hi] at hs ⊢
      rw [if_pos rfl]
      exact hs.event
    · rw [if_neg hx]
      exact (append_nil (tags flight x)).symm ▸ hs
  · rw [tags_append, mem_append, tags_cons] at hx
    obtain hx | hx := hx
    · exact h.ended x hx
    · split at hx
      · cases mem_singleton.mp hx
      · cases hx

lemma destroyed (h : Underway o placeholders c flight ahead plan) (hi : c.map id = some i)
    (hne : id ≠ wlDisplay) (msg : Bytes) :
    Underway o placeholders (c.destroy id) (flight ++ [⟨.deleted, id, msg⟩]) ahead plan := by
  have hupdate {x : ℕ} (hx : x ≠ id) : (c.destroy id).map x = c.map x := update_of_ne hx _ _
  have hgone : (c.destroy id).map id = none := update_self ..
  have hstill (x : ℕ) (j : Interface) (hx : (c.destroy id).map x = some j) : c.map x = some j := by
    have hxid : x ≠ id := fun he => by rw [he, hgone] at hx; cases hx
    exact (hupdate hxid).symm.trans hx
  refine ⟨h.described, fun x => ?_, h.dense, ?_, fun x hx => ?_, (hupdate hne.symm).trans h.display, h.unplaced,
    fun x j hx => h.small x j (hstill x j hx)⟩
  · have hs := h.shape x
    rw [tags_append, tags_cons]
    by_cases hx : id = x
    · subst hx
      rw [hi] at hs
      rw [if_pos rfl, hgone]
      exact hs.delete
    · rw [if_neg hx, hupdate (Ne.symm hx)]
      exact (append_nil (tags flight x)).symm ▸ hs
  · refine h.agree.shrink hstill (fun x j hx => ?_) (subset_cons_self _ _)
    by_cases hxid : x = id
    · exact .inr (hxid ▸ mem_cons_self)
    · exact .inl ((hupdate hxid).trans hx)
  · rw [tags_append, mem_append, tags_cons] at hx
    obtain hx | hx := hx
    · exact mem_cons_of_mem _ (h.ended x hx)
    · split at hx
      · rename_i he
        exact he ▸ mem_cons_self
      · cases hx

variable {e : Coming}

lemma heard (h : Underway o placeholders c (e :: flight) ahead plan)
    (hslots : o'.client.length = o.client.length) (hp : wlDisplay ∉ placeholders')
    (hself : Shape (o'.forwarded e.id) (c.map e.id) (Asked.about plan e.id) (tags flight e.id)
      ((placeholders'.lookup e.id).getD 0))
    (hne : ∀ x, x ≠ e.id → o'.forwarded x = o.forwarded x ∧ placeholders'.lookup x = placeholders.lookup x) :
    Underway o' placeholders' c flight ahead plan := by
  refine ⟨h.described, fun x => ?_, hslots ▸ h.dense, h.agree, fun x hx => h.ended x ?_, h.display, hp, h.small⟩
  · by_cases hx : x = e.id
    · exact hx ▸ hself
    · have hs := h.shape x
      rw [tags_cons, if_neg (Ne.symm hx)] at hs
      rw [(hne x hx).1, (hne x hx).2]
      exact hs
  · rw [tags_cons]
    split
    · exact mem_cons_of_mem _ hx
    · exact hx

lemma head (h : Underway o placeholders c (e :: flight) ahead plan) :
    Shape (o.forwarded e.id) (c.map e.id) (Asked.about plan e.id) (e.tag :: tags flight e.id)
      ((placeholders.lookup e.id).getD 0) := by
  have hs := h.shape e.id
  rw [tags_cons, if_pos rfl] at hs
  exact hs

lemma head_placed (h : Underway o placeholders c (e :: flight) ahead plan)
    (ht : e.tag = .answer ∨ e.tag = .answered) : ∃ n, placeholders.lookup e.id = some n ∧ 0 < n := by
  have hpos := (h.head.answer_head ht).1
  cases hl : placeholders.lookup e.id with
  | none =>
    rw [hl] at hpos
    cases hpos
  | some n =>
    rw [hl] at hpos
    exact ⟨n, rfl, hpos⟩

lemma head_unplaced (h : Underway o placeholders c (e :: flight) ahead plan) (hplaced : Placed placeholders)
    (ht : e.tag = .event ∨ e.tag = .deleted) : placeholders.lookup e.id = none := by
  have hzero := (h.head.object_head ht).1
  cases hl : placeholders.lookup e.id with
  | none => rfl
  | some n =>
    have hpos := hplaced e.id n hl
    rw [hl] at hzero
    exact absurd hzero (Nat.ne_of_gt hpos)

end Underway

end Kryptik.Wlproxy
