import Kryptik.Wlproxy.Frames
import Kryptik.Wlproxy.Scene

namespace Kryptik.Wlproxy

open Lib Prog Tables Wire Protocol Relation List Option Function Shm

namespace Scene

variable {sc sc' : Scene} {s p x id : ℕ} {sf : Surface}

lemma parent_put (s : ℕ) (sf : Option Surface) :
    (sc.put s sf).parent = update sc.parent s (sf.bind Surface.parent) := by
  funext x
  by_cases hx : x = s
  · subst hx
    rw [update_self, parent, put_self]
  · rw [update_of_ne hx, parent, put_ne _ hx, parent]

lemma role_put (s : ℕ) (sf : Option Surface) :
    (sc.put s sf).role = update sc.role s (sf.bind Surface.role) := by
  funext x
  by_cases hx : x = s
  · subst hx
    rw [update_self, role, put_self]
  · rw [update_of_ne hx, role, put_ne _ hx, role]

lemma children_put (s : ℕ) (sf : Option Surface) :
    (sc.put s sf).children = update sc.children s (sf.elim [] Surface.children) := by
  funext x
  by_cases hx : x = s
  · subst hx
    rw [update_self, children, put_self]
  · rw [update_of_ne hx, children, put_ne _ hx, children]

lemma surface_eq (hs : sc.surfaces s = some sf) : sc.surface s = sf := by rw [surface, hs, getD_some]

lemma parent_eq (hs : sc.surfaces s = some sf) : sc.parent s = sf.parent := by rw [parent, hs, bind_some]

lemma role_eq (hs : sc.surfaces s = some sf) : sc.role s = sf.role := by rw [role, hs, bind_some]

lemma children_eq (hs : sc.surfaces s = some sf) : sc.children s = sf.children := by
  rw [children, hs, elim_some]

lemma links_surface (sc : Scene) (s : ℕ) : (sc.surface s).parent = sc.parent s ∧ (sc.surface s).role = sc.role s ∧
    (sc.surface s).children = sc.children s := by
  unfold surface parent role children
  cases sc.surfaces s with
  | none | some sf => exact ⟨rfl, rfl, rfl⟩

structure Alike (sc sc' : Scene) : Prop where
  parent : sc'.parent = sc.parent
  role : sc'.role = sc.role
  children : sc'.children = sc.children
  subs : sc'.subs = sc.subs

lemma Forest.alike (h : sc.Forest) (ha : Alike sc sc') : sc'.Forest := by
  obtain ⟨hp, hr, hc, hs⟩ := ha
  exact ⟨hp ▸ h.acyclic, by rw [hp, hc]; exact h.linked, by rw [hp, hr]; exact h.roled, by rw [hr, hs]; exact h.made⟩

lemma Alike.refl (sc : Scene) : Alike sc sc := ⟨rfl, rfl, rfl, rfl⟩

lemma Alike.put {sf' : Surface} (hp : sf'.parent = (sc.surface s).parent) (hr : sf'.role = (sc.surface s).role)
    (hc : sf'.children = (sc.surface s).children) : Alike sc (sc.put s (some sf')) where
  parent := by rw [parent_put, bind_some, hp, (links_surface sc s).1, update_eq_self]
  role := by rw [role_put, bind_some, hr, (links_surface sc s).2.1, update_eq_self]
  children := by rw [children_put, elim_some, hc, (links_surface sc s).2.2, update_eq_self]
  subs := rfl

lemma Alike.apply (sc : Scene) (s : ℕ) : Alike sc (sc.apply s) := by
  refine ⟨funext fun x => ?_, funext fun x => ?_, funext fun x => ?_, rfl⟩
  · simp only [Scene.parent, Scene.apply]
    cases sc.surfaces x with
    | none => rfl
    | some sf => rw [map_some, bind_some, bind_some]; split <;> rfl
  · simp only [Scene.role, Scene.apply]
    cases sc.surfaces x with
    | none => rfl
    | some sf => rw [map_some, bind_some, bind_some]; split <;> rfl
  · simp only [Scene.children, Scene.apply]
    cases sc.surfaces x with
    | none => rfl
    | some sf => rw [map_some, elim_some, elim_some]; split <;> rfl

lemma Alike.hold (sc : Scene) (s : ℕ) : Alike sc (sc.hold s) := by
  unfold Scene.hold
  split
  · exact .refl sc
  · rename_i sf hs
    split
    · exact .refl sc
    · exact .put (by rw [surface_eq hs]) (by rw [surface_eq hs]) (by rw [surface_eq hs])

lemma Alike.cache (sc : Scene) (s : ℕ) : Alike sc (sc.cache s) := by
  unfold Scene.cache
  split
  · exact .refl sc
  · rename_i sf hs
    exact .put (by rw [surface_eq hs]) (by rw [surface_eq hs]) (by rw [surface_eq hs])

lemma Alike.trans {sc'' : Scene} (h : Alike sc sc') (h' : Alike sc' sc'') : Alike sc sc'' :=
  ⟨h'.parent.trans h.parent, h'.role.trans h.role, h'.children.trans h.children, h'.subs.trans h.subs⟩

lemma Alike.commit (sc : Scene) (s : ℕ) : Alike sc (sc.commit s) := by
  unfold Scene.commit
  split
  · exact .trans (.hold sc s) (.cache _ s)
  · exact .trans (.hold sc s) (.apply _ s)

lemma children_orphan (s : ℕ) (parent : Option ℕ) (h : ∀ x, s ∈ sc.children x → parent = some x) :
    (sc.orphan s parent).children = fun x => (sc.children x).filter (· ≠ s) := by
  have hkeep (x : ℕ) (hx : s ∉ sc.children x) : (sc.children x).filter (· ≠ s) = sc.children x :=
    filter_eq_self.mpr fun c hc => decide_eq_true fun he => hx (he ▸ hc)
  cases parent with
  | none => exact funext fun x => (hkeep x fun hx => nomatch h x hx).symm
  | some p =>
    cases hp : sc.surfaces p with
    | none =>
      simp only [orphan, hp]
      refine funext fun x => (hkeep x fun hx => ?_).symm
      cases h x hx
      rw [children, hp] at hx
      cases hx
    | some pf =>
      funext x
      simp only [orphan, hp, children_put, elim_some]
      by_cases hx : x = p
      · subst hx
        rw [update_self, children_eq hp]
      · rw [update_of_ne hx]
        exact (hkeep x fun hin => hx (Option.some.inj (h x hin)).symm).symm

lemma parent_orphan (s : ℕ) (parent : Option ℕ) : (sc.orphan s parent).parent = sc.parent := by
  unfold orphan
  split
  · rfl
  · split
    · rfl
    · rename_i pf hp
      rw [parent_put, bind_some, ← parent_eq hp, update_eq_self]

lemma role_orphan (s : ℕ) (parent : Option ℕ) : (sc.orphan s parent).role = sc.role := by
  unfold orphan
  split
  · rfl
  · split
    · rfl
    · rename_i pf hp
      rw [role_put, bind_some, ← role_eq hp, update_eq_self]

lemma subs_orphan (s : ℕ) (parent : Option ℕ) : (sc.orphan s parent).subs = sc.subs := by
  unfold orphan
  split
  · rfl
  · split <;> rfl

structure Unlinked (s : ℕ) (sc sc' : Scene) : Prop where
  parent : sc'.parent = update sc.parent s none
  role : sc'.role = update sc.role s none
  children : sc'.children = fun x => (sc.children x).filter (· ≠ s)
  subs : sc'.subs = sc.subs

lemma unlinked_endRole (hs : sc.surfaces s = some sf) (h : ∀ x, s ∈ sc.children x → sc.parent s = some x) :
    Unlinked s sc (sc.endRole s) := by
  unfold endRole
  simp only [hs]
  have hchildren : (sc.put s (some { sf with parent := none, role := none, sync := false })).children = sc.children := by
    rw [children_put, elim_some, ← children_eq hs, update_eq_self]
  refine ⟨?_, ?_, ?_, ?_⟩
  · rw [parent_orphan, parent_put, bind_some]
  · rw [role_orphan, role_put, bind_some]
  · rw [children_orphan, hchildren]
    rw [hchildren, ← parent_eq hs]
    exact h
  · rw [subs_orphan]
    rfl

lemma of_cut {f : ℕ → Option ℕ} {y : ℕ} (h : update f s none x = some y) : x ≠ s ∧ f x = some y := by
  by_cases hx : x = s
  · subst hx
    rw [update_self] at h
    cases h
  · exact ⟨hx, by rwa [update_of_ne hx] at h⟩

lemma roled_cut {f g : ℕ → Option ℕ} (h : ∀ x, (f x).isSome → (g x).isSome) (x : ℕ)
    (hx : (update f s none x).isSome) : (update g s none x).isSome := by
  obtain ⟨y, hy⟩ := isSome_iff_exists.mp hx
  obtain ⟨hne, hy⟩ := of_cut hy
  rw [update_of_ne hne]
  exact h x (by rw [hy]; rfl)

lemma count_filter_ne (l : List ℕ) (a s : ℕ) : (l.filter (· ≠ s)).count a = if a = s then 0 else l.count a := by
  split
  · rename_i h
    subst h
    exact count_eq_zero.mpr fun hin => by simpa using (mem_filter.mp hin).2
  · rename_i h
    exact count_filter (decide_eq_true h)

lemma Forest.mem_children (h : sc.Forest) : s ∈ sc.children p ↔ sc.parent s = some p := by
  rw [← count_pos_iff, h.linked]
  split <;> simp_all

lemma Alike.unlinked {sc'' : Scene} (h : Alike sc sc') (hu : Unlinked s sc' sc'') : Unlinked s sc sc'' :=
  ⟨h.parent ▸ hu.parent, h.role ▸ hu.role, h.children ▸ hu.children, hu.subs.trans h.subs⟩

lemma unlinked_detach (hs : sc.surfaces s = some sf) (h : ∀ x, s ∈ sc.children x → sc.parent s = some x) :
    Unlinked s sc (sc.detach s) := by
  unfold detach
  split
  · have halike := Alike.apply sc s
    have hs' : (sc.apply s).surfaces s = some (Shm.applied sf) := by simp [Scene.apply, hs, ReflTransGen.refl]
    refine halike.unlinked (unlinked_endRole hs' ?_)
    rw [halike.children, halike.parent]
    exact h
  · exact unlinked_endRole hs h

lemma Unlinked.forest (hu : Unlinked s sc sc') (hacyclic : Forest.Acyclic sc.parent)
    (hlinked : ∀ x p, (sc.children p).count x = if sc.parent x = some p then 1 else 0)
    (hroled : ∀ x, (sc.parent x).isSome → (sc.role x).isSome)
    (hmade : ∀ x id, x ≠ s → sc.role x = some id → sc.subs.lookup id = some x) : sc'.Forest := by
  obtain ⟨hp, hr, hc, hs⟩ := hu
  refine ⟨hacyclic.mono fun a b hab => (of_cut (hp ▸ hab)).2, fun x q => ?_, ?_, fun x id hx => ?_⟩
  · rw [hc, hp, count_filter_ne]
    by_cases hx : x = s
    · subst hx
      simp
    · rw [if_neg hx, update_of_ne hx, hlinked]
  · rw [hp, hr]
    exact roled_cut hroled
  · rw [hr] at hx
    obtain ⟨hne, hx⟩ := of_cut hx
    exact hs ▸ hmade x id hne hx

lemma links_adopt (sc : Scene) (id s p : ℕ) : (sc.adopt id s p).parent = update sc.parent s (some p) ∧
    (sc.adopt id s p).role = update sc.role s (some id) ∧
    (sc.adopt id s p).children = update sc.children p (sc.children p ++ [s]) := by
  generalize hsc1 : sc.put s (some { sc.surface s with role := some id, parent := some p, sync := true }) = sc1
  have hp : sc1.parent = update sc.parent s (some p) := by rw [← hsc1, parent_put, bind_some]
  have hr : sc1.role = update sc.role s (some id) := by rw [← hsc1, role_put, bind_some]
  have hc : sc1.children = sc.children := by
    rw [← hsc1, children_put, elim_some, (links_surface sc s).2.2, update_eq_self]
  have hadopt : (sc.adopt id s p).surfaces =
      (sc1.put p (some { sc1.surface p with children := (sc1.surface p).children ++ [s] })).surfaces := by
    rw [← hsc1]
    rfl
  obtain ⟨hp', hr', hc'⟩ := links_surface sc1 p
  generalize hsc2 : sc1.put p (some { sc1.surface p with children := (sc1.surface p).children ++ [s] }) = sc2 at hadopt
  have hlinks : (sc.adopt id s p).parent = sc2.parent ∧ (sc.adopt id s p).role = sc2.role ∧
      (sc.adopt id s p).children = sc2.children := by
    unfold parent role children
    rw [hadopt]
    exact ⟨rfl, rfl, rfl⟩
  rw [hlinks.1, hlinks.2.1, hlinks.2.2, ← hsc2, parent_put, role_put, children_put]
  simp only [bind_some, elim_some, hp', hr', hc', update_eq_self]
  exact ⟨hp, hr, by rw [hc]⟩

lemma Forest.adopt (h : sc.Forest) (hrole : sc.role s = none) (hup : ¬ ReflTransGen (Forest.Up sc.parent) p s)
    (hid : id ∉ sc.subs) : (sc.adopt id s p).Forest := by
  have hparent : sc.parent s = none := by
    by_contra hne
    have := h.roled s (isSome_iff_ne_none.mpr hne)
    rw [hrole] at this
    cases this
  obtain ⟨hp, hr, hc⟩ := links_adopt sc id s p
  refine ⟨?_, fun x q => ?_, fun x hx => ?_, fun x i hx => ?_⟩
  · rw [hp]
    exact h.acyclic.link hup
  · rw [hc, hp]
    by_cases hq : q = p
    · subst hq
      rw [update_self, count_append, h.linked]
      by_cases hx : x = s
      · subst hx
        simp [hparent]
      · simp [update_of_ne hx, Ne.symm hx]
    · rw [update_of_ne hq, h.linked]
      by_cases hx : x = s
      · subst hx
        simp [hparent, Ne.symm hq]
      · rw [update_of_ne hx]
  · rw [hp] at hx
    rw [hr]
    by_cases hxs : x = s
    · subst hxs
      rw [update_self]
      rfl
    · rw [update_of_ne hxs] at hx ⊢
      exact h.roled x hx
  · rw [hr] at hx
    change (sc.subs.insert id s).lookup i = some x
    by_cases hxs : x = s
    · subst hxs
      rw [update_self] at hx
      cases hx
      exact AList.lookup_insert sc.subs
    · rw [update_of_ne hxs] at hx
      have hi := h.made x i hx
      have hne : i ≠ id := by
        rintro rfl
        exact hid (mem_iff_lookup.mpr ⟨x, hi⟩)
      rwa [AList.lookup_insert_ne hne]

lemma Forest.destroy (h : sc.Forest) (object : ℕ) : (sc.destroy object).Forest := by
  -- what is left of the table serves every role but that of `object`
  have hmade (x id : ℕ) (hne : id ≠ object) (hx : sc.role x = some id) :
      (sc.subs.erase object).lookup id = some x := (AList.lookup_erase_ne hne).trans (h.made x id hx)
  unfold Scene.destroy
  cases hlive : sc.live object with
  | none =>
    refine ⟨h.acyclic, h.linked, h.roled, fun x id hx => hmade x id ?_ hx⟩
    rintro rfl
    obtain ⟨sf, hsf, hrole⟩ := bind_eq_some_iff.mp hx
    rw [live_eq_some.mpr ⟨h.made x id hx, sf, hsf, hrole⟩] at hlive
    cases hlive
  | some s =>
    obtain ⟨hobject, sf, hsf, -⟩ := live_eq_some.mp hlive
    have hunlinked : Unlinked s { sc with subs := sc.subs.erase object }
        (Scene.detach { sc with subs := sc.subs.erase object } s) :=
      unlinked_detach hsf fun x hx => h.mem_children.mp hx
    refine hunlinked.forest h.acyclic h.linked h.roled fun x id hne hx => hmade x id ?_ hx
    rintro rfl
    have hx' := h.made x id hx
    rw [hobject] at hx'
    exact hne (Option.some.inj hx').symm

/-- A scene that has lost the surface `id`: its children in `rest` still name it as their parent, and its own
parent still has it among its children. -/
structure Torn (id : ℕ) (above : Option ℕ) (rest : List ℕ) (sc : Scene) : Prop where
  gone : sc.surfaces id = none
  acyclic : Forest.Acyclic sc.parent
  linked : ∀ s p, s ≠ id → p ≠ id → (sc.children p).count s = if sc.parent s = some p then 1 else 0
  kept : ∀ p, (sc.children p).count id = if above = some p then 1 else 0
  rest : ∀ s, sc.parent s = some id → s ∈ rest
  roled : ∀ s, (sc.parent s).isSome → (sc.role s).isSome
  made : ∀ s i, sc.role s = some i → sc.subs.lookup i = some s

lemma Forest.torn (h : sc.Forest) (hs : sc.surfaces id = some sf) : Torn id sf.parent sf.children (sc.put id none) := by
  have hp : (sc.put id none).parent = update sc.parent id none := parent_put id none
  have hr : (sc.put id none).role = update sc.role id none := role_put id none
  have hc : (sc.put id none).children = update sc.children id [] := children_put id none
  refine ⟨put_self _ _, h.acyclic.mono fun a b hab => (of_cut (hp ▸ hab)).2, fun x q hx hq => ?_, fun q => ?_,
    fun x hx => ?_, ?_, fun x i hx => ?_⟩
  · rw [hc, hp, update_of_ne hx, update_of_ne hq, h.linked]
  · rw [hc, ← parent_eq hs]
    by_cases hq : q = id
    · subst hq
      rw [update_self, count_nil, if_neg]
      intro hself
      exact h.acyclic q (.single hself)
    · rw [update_of_ne hq, h.linked]
  · rw [← children_eq hs]
    exact h.mem_children.mpr (of_cut (hp ▸ hx)).2
  · rw [hp, hr]
    exact roled_cut h.roled
  · exact h.made x i (of_cut (hr ▸ hx)).2

lemma gone_orphan (s : ℕ) (above : Option ℕ) (h : sc.surfaces x = none) : (sc.orphan s above).surfaces x = none := by
  unfold orphan
  split
  · exact h
  · split
    · exact h
    · rename_i p pf hp
      rw [put_ne, h]
      rintro rfl
      rw [h] at hp
      cases hp

lemma gone_detach (s : ℕ) (h : sc.surfaces x = none) : (sc.detach s).surfaces x = none := by
  have hend (y : Scene) (hy : y.surfaces x = none) : (y.endRole s).surfaces x = none := by
    unfold endRole
    split
    · exact hy
    · rename_i sf hs
      refine gone_orphan s _ ?_
      rw [put_ne, hy]
      rintro rfl
      rw [hy] at hs
      cases hs
  unfold detach
  split
  · exact hend _ (map_eq_none_iff.mpr h)
  · exact hend _ h

lemma Torn.detach {above : Option ℕ} {c : ℕ} {rest : List ℕ} (h : Torn id above (c :: rest) sc) :
    Torn id above rest (sc.detach c) := by
  cases hc : sc.surfaces c with
  | none =>
    have hsame : sc.detach c = sc := by simp [Scene.detach, Scene.endRole, hc]
    rw [hsame]
    refine ⟨h.gone, h.acyclic, h.linked, h.kept, fun s hs => ?_, h.roled, h.made⟩
    refine (mem_cons.mp (h.rest s hs)).resolve_left ?_
    rintro rfl
    rw [parent, hc] at hs
    cases hs
  | some cf =>
    have hcid : c ≠ id := by
      rintro rfl
      rw [h.gone] at hc
      cases hc
    have hunlinked : Unlinked c sc (sc.detach c) := by
      refine unlinked_detach hc fun x hx => ?_
      have hxid : x ≠ id := by
        rintro rfl
        rw [children, h.gone] at hx
        cases hx
      have hcount := h.linked c x hcid hxid
      by_contra hne
      rw [if_neg hne] at hcount
      exact count_eq_zero.mp hcount hx
    obtain ⟨hp, hr, hch, hsubs⟩ := hunlinked
    refine ⟨gone_detach c h.gone, h.acyclic.mono fun a b hab => (of_cut (hp ▸ hab)).2, fun x q hx hq => ?_,
      fun q => ?_, fun x hx => ?_, ?_, fun x i hx => ?_⟩
    · rw [hch, hp, count_filter_ne]
      by_cases hxc : x = c
      · subst hxc
        simp
      · rw [if_neg hxc, update_of_ne hxc, h.linked x q hx hq]
    · rw [hch, count_filter_ne, if_neg (Ne.symm hcid), h.kept]
    · obtain ⟨hxc, hx⟩ := of_cut (hp ▸ hx)
      exact (mem_cons.mp (h.rest x hx)).resolve_left hxc
    · rw [hp, hr]
      exact roled_cut h.roled
    · exact hsubs ▸ h.made x i (of_cut (hr ▸ hx)).2

lemma Torn.mend {above : Option ℕ} (h : Torn id above [] sc) : (sc.orphan id above).Forest := by
  have hc : (sc.orphan id above).children = fun x => (sc.children x).filter (· ≠ id) := by
    refine children_orphan id above fun x hx => ?_
    have hcount := h.kept x
    by_contra hne
    rw [if_neg hne] at hcount
    exact count_eq_zero.mp hcount hx
  have hid : sc.parent id = none := by rw [parent, h.gone, bind_none]
  refine ⟨?_, fun x q => ?_, ?_, ?_⟩
  · rw [parent_orphan]
    exact h.acyclic
  · rw [hc, parent_orphan, count_filter_ne]
    by_cases hx : x = id
    · subst hx
      simp [hid]
    · rw [if_neg hx]
      by_cases hq : q = id
      · subst hq
        rw [children, h.gone, elim_none, count_nil, if_neg]
        exact fun hxq => not_mem_nil (h.rest x hxq)
      · exact h.linked x q hx hq
  · rw [parent_orphan, role_orphan]
    exact h.roled
  · rw [role_orphan, subs_orphan]
    exact h.made

lemma Forest.delete (h : sc.Forest) (id : ℕ) : (sc.delete id).Forest := by
  have hfold (l : List ℕ) (above : Option ℕ) (x : Scene) (hx : Torn id above l x) :
      Torn id above [] (l.foldl Scene.detach x) := by
    induction l generalizing x with
    | nil => exact hx
    | cons c l ih => exact ih _ hx.detach
  cases hs : sc.surfaces id with
  | none => simpa only [Scene.delete, hs] using h
  | some sf =>
    simp only [Scene.delete, hs]
    exact (hfold _ _ _ (h.torn hs)).mend

lemma Forest.perform (h : sc.Forest) (deed : Deed) (hadopt : ∀ id s p, deed = .adopt id s p →
      sc.role s = none ∧ ¬ ReflTransGen (Forest.Up sc.parent) p s ∧ id ∉ sc.subs) : (sc.perform deed).Forest := by
  cases deed with
  | nothing => exact h
  | attach s pool => exact h.alike (.put rfl rfl rfl)
  | commit s => exact h.alike (.commit sc s)
  | adopt id s p =>
    obtain ⟨hrole, hup, hid⟩ := hadopt id s p rfl
    exact h.adopt hrole hup hid
  | setSync object =>
    simp only [Scene.perform, Scene.setSync]
    split
    · exact h
    · exact h.alike (.put rfl rfl rfl)
  | setDesync object =>
    simp only [Scene.perform, Scene.setDesync]
    split
    · exact h
    · rename_i s hs
      have halike : Alike sc (sc.put s (some { sc.surface s with sync := false })) := .put rfl rfl rfl
      have hput := h.alike halike
      split
      · exact hput.alike (.apply _ s)
      · exact hput
  | destroy object => exact h.destroy object
  | delete id => exact h.delete id

end Scene

def Request.deed (t : Shm) (h : Header) (iface : Interface) (m : Message) (body : Bytes) : Deed :=
  if iface = .wlSurface ∧ m.name = "attach" then
    match readArgs ArgReader.u32 body with
    | .ok buffer => .attach h.object (t.bufferPools.lookup buffer)
    | .error _ => .nothing
  else if iface = .wlSurface ∧ m.name = "commit" then .commit h.object
  else if iface = .wlSubcompositor ∧ m.name = "get_subsurface" then
    match readArgs (do return (← ArgReader.u32, ← ArgReader.u32, ← ArgReader.u32)) body with
    | .ok (id, surface, parent) => .adopt id surface parent
    | .error _ => .nothing
  else if iface = .wlSubsurface ∧ m.name = "set_sync" then .setSync h.object
  else if iface = .wlSubsurface ∧ m.name = "set_desync" then .setDesync h.object
  else if iface = .wlSubsurface ∧ m.name = "destroy" then .destroy h.object
  else .nothing

lemma Request.wp_account (k : Kernel) (h : Header) (iface : Interface) (m : Message) (body : Bytes)
    (fds : List Fd) (d : Decoded) {t : Shm} (ht : t.scene.Forest) : wp (Request.account k h iface m body fds d)
      (fun _ t' => t'.scene = t.scene.perform (Request.deed t h iface m body) ∧
        ∀ id s p, Request.deed t h iface m body = .adopt id s p → t.scene.role s = none ∧ s ∉ t.up p)
      (fun _ _ => True) t := by
  -- a request that is not a get_subsurface
  have hplain {x : ShmM Unit} (hdeed : ∀ id s p, Request.deed t h iface m body ≠ .adopt id s p)
      (hx : Shm.Shows x t (t.scene.perform (Request.deed t h iface m body))) : wp x
      (fun _ t' => t'.scene = t.scene.perform (Request.deed t h iface m body) ∧
        ∀ id s p, Request.deed t h iface m body = .adopt id s p → t.scene.role s = none ∧ s ∉ t.up p)
      (fun _ _ => True) t :=
    wp_mono hx (fun _ _ ht' => ⟨ht', fun id s p he => absurd he (hdeed id s p)⟩) fun _ _ h => h
  refine wp_ite (fun hc => ?_) fun _ => wp_ite (fun hc => ?_) fun _ => wp_ite (fun hc => ?_) fun _ =>
    wp_ite (fun hc => ?_) fun h1 => wp_ite (fun hc => ?_) fun h2 => wp_ite (fun hc => ?_) fun h3 =>
    wp_ite (fun hc => ?_) fun h4 => wp_ite (fun hc => ?_) fun h5 => wp_ite (fun hc => ?_) fun h6 => ?_
  · obtain ⟨rfl, hm⟩ := hc
    have hdeed : Request.deed t h .wlShm m body = .nothing := by simp [Request.deed]
    refine hplain (by simp [hdeed]) ?_
    unfold Shm.Shows
    simp only [wp_bind, wp_liftWire, hdeed]
    exact ⟨fun _ _ => shows_createPool k _ _ _ t, fun _ _ => trivial⟩
  · obtain ⟨rfl, hm⟩ := hc
    have hdeed : Request.deed t h .wlShmPool m body = .nothing := by simp [Request.deed]
    refine hplain (by simp [hdeed]) ?_
    unfold Shm.Shows
    simp only [wp_bind, wp_liftWire, hdeed]
    exact ⟨fun _ _ => shows_resize _ _ t, fun _ _ => trivial⟩
  · obtain ⟨rfl, hm⟩ := hc
    have hdeed : Request.deed t h .wlShmPool m body = .nothing := by simp [Request.deed]
    refine hplain (by simp [hdeed]) ?_
    unfold Shm.Shows
    simp only [wp_bind, wp_orRefuse, hdeed]
    exact ⟨fun _ _ => shows_createBuffer _ _ t, fun _ => trivial⟩
  · have hdeed (buffer : ℕ) (hread : readArgs ArgReader.u32 body = .ok buffer) :
        Request.deed t h iface m body = .attach h.object (t.bufferPools.lookup buffer) := by
      simp [Request.deed, hc, hread]
    simp only [wp_bind, wp_liftWire]
    refine ⟨fun buffer hread => hplain (by simp [hdeed buffer hread]) ?_, fun _ _ => trivial⟩
    rw [hdeed buffer hread]
    exact shows_attach h.object buffer t
  · have hdeed : Request.deed t h iface m body = .commit h.object := by rw [Request.deed, if_neg h1, if_pos hc]
    refine hplain (by simp [hdeed]) ?_
    rw [hdeed]
    exact shows_commit k (ht.alike (.hold _ _))
  · refine wp_ite (fun _ => trivial) fun _ => ?_
    simp only [wp_bind, wp_liftWire]
    refine ⟨fun args hread => ?_, fun _ _ => trivial⟩
    obtain ⟨id, surface, parent⟩ := args
    have hdeed : Request.deed t h iface m body = .adopt id surface parent := by
      rw [Request.deed, if_neg h1, if_neg h2, if_pos hc, hread]
    rw [hdeed]
    refine wp_mono (wp_getSubsurface id surface parent t) (fun _ t' h' => ⟨h'.2.2, ?_⟩) fun _ _ h => h
    intro id' s p he
    cases he
    exact ⟨h'.1, h'.2.1⟩
  · have hdeed : Request.deed t h iface m body = .setSync h.object := by
      rw [Request.deed, if_neg h1, if_neg h2, if_neg h3, if_pos hc]
    refine hplain (by simp [hdeed]) ?_
    rw [hdeed]
    exact shows_setSync h.object t
  · have hdeed : Request.deed t h iface m body = .setDesync h.object := by
      rw [Request.deed, if_neg h1, if_neg h2, if_neg h3, if_neg h4, if_pos hc]
    refine hplain (by simp [hdeed]) ?_
    rw [hdeed]
    exact shows_setDesync k h.object t fun s _ => ht.alike (.put rfl rfl rfl)
  · have hdeed : Request.deed t h iface m body = .destroy h.object := by
      rw [Request.deed, if_neg h1, if_neg h2, if_neg h3, if_neg h4, if_neg h5, if_pos hc]
    refine hplain (by simp [hdeed]) ?_
    rw [hdeed]
    exact shows_destroySubsurface k h.object t
  · have hdeed : Request.deed t h iface m body = .nothing := by
      rw [Request.deed, if_neg h1, if_neg h2, if_neg h3, if_neg h4, if_neg h5, if_neg h6]
    refine hplain (by simp [hdeed]) ?_
    rw [hdeed]
    exact rfl

end Kryptik.Wlproxy
