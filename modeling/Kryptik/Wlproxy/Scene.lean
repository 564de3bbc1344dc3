import Kryptik.Lib.Forest
import Kryptik.Wlproxy.ShmSound

namespace Kryptik.Wlproxy

open Lib Prog Tables Wire Protocol Relation List Option Function

/-- The surfaces of a session and which surface each wl_subsurface was made for, apart from the pools. -/
structure Scene where
  surfaces : ℕ → Option Surface
  subs : Table ℕ ℕ

inductive Deed
  | nothing
  | attach (surface : ℕ) (pool : Option ℕ)
  | commit (surface : ℕ)
  | adopt (id surface parent : ℕ)
  | setSync (object : ℕ)
  | setDesync (object : ℕ)
  | destroy (object : ℕ)
  | delete (id : ℕ)

namespace Scene

variable (sc : Scene)

def parent (s : ℕ) : Option ℕ := (sc.surfaces s).bind Surface.parent

def role (s : ℕ) : Option ℕ := (sc.surfaces s).bind Surface.role

def children (s : ℕ) : List ℕ := (sc.surfaces s).elim [] Surface.children

def Synced (s : ℕ) : Prop :=
  ∃ a, ReflTransGen (Forest.Up sc.parent) s a ∧ (sc.surfaces a).any Surface.sync = true

def Passes (s c : ℕ) : Prop :=
  c ∈ sc.children s ∧ (sc.surfaces c).any (fun sf => sf.sync && sf.cached) = true

def put (s : ℕ) (sf : Option Surface) : Scene := { sc with surfaces := Function.update sc.surfaces s sf }

def surface (s : ℕ) : Surface := (sc.surfaces s).getD {}

open Classical in
noncomputable def apply (s : ℕ) : Scene :=
  { sc with surfaces := fun x =>
      (sc.surfaces x).map (fun sf => if ReflTransGen sc.Passes s x then Shm.applied sf else sf) }

def orphan (s : ℕ) (parent : Option ℕ) : Scene :=
  match parent with
  | none => sc
  | some p => match sc.surfaces p with
    | none => sc
    | some pf => sc.put p (some { pf with children := pf.children.filter (· ≠ s) })

def endRole (s : ℕ) : Scene :=
  match sc.surfaces s with
  | none => sc
  | some sf => (sc.put s (some { sf with parent := none, role := none, sync := false })).orphan s sf.parent

noncomputable def detach (s : ℕ) : Scene :=
  (if (sc.surfaces s).any Surface.cached then sc.apply s else sc).endRole s

def hold (s : ℕ) : Scene :=
  match sc.surfaces s with
  | none => sc
  | some sf => match sf.pending with
    | none => sc
    | some p => sc.put s (some { sf with
        pending := none, held := if sf.held.getLast? = some p then sf.held else sf.held ++ [p] })

def cache (s : ℕ) : Scene :=
  match sc.surfaces s with
  | none => sc
  | some sf => sc.put s (some { sf with cached := true })

open Classical in
noncomputable def commit (s : ℕ) : Scene :=
  if (sc.hold s).Synced s then (sc.hold s).cache s else (sc.hold s).apply s

def adopt (id s p : ℕ) : Scene :=
  let sc := sc.put s (some { sc.surface s with role := some id, parent := some p, sync := true })
  { sc.put p (some { sc.surface p with children := (sc.surface p).children ++ [s] }) with
    subs := sc.subs.insert id s }

def live (object : ℕ) : Option ℕ :=
  (sc.subs.lookup object).filter (fun s => (sc.surfaces s).any (fun sf => sf.role = some object))

def setSync (object : ℕ) : Scene :=
  match sc.live object with
  | none => sc
  | some s => sc.put s (some { sc.surface s with sync := true })

open Classical in
noncomputable def setDesync (object : ℕ) : Scene :=
  match sc.live object with
  | none => sc
  | some s =>
    let sf := sc.surface s
    let sc := sc.put s (some { sf with sync := false })
    if sf.sync ∧ sf.cached ∧ ¬ sc.Synced s then sc.apply s else sc

noncomputable def destroy (object : ℕ) : Scene :=
  let sc' := { sc with subs := sc.subs.erase object }
  match sc.live object with
  | none => sc'
  | some s => sc'.detach s

noncomputable def delete (id : ℕ) : Scene :=
  match sc.surfaces id with
  | none => sc
  | some sf => (sf.children.foldl detach (sc.put id none)).orphan id sf.parent

noncomputable def perform : Deed → Scene
  | .nothing => sc
  | .attach s pool => sc.put s (some { sc.surface s with pending := some pool })
  | .commit s => sc.commit s
  | .adopt id s p => sc.adopt id s p
  | .setSync object => sc.setSync object
  | .setDesync object => sc.setDesync object
  | .destroy object => sc.destroy object
  | .delete id => sc.delete id

variable {sc}

@[simp] lemma put_self (s : ℕ) (sf : Option Surface) : (sc.put s sf).surfaces s = sf := update_self ..

lemma put_ne {s x : ℕ} (sf : Option Surface) (h : x ≠ s) : (sc.put s sf).surfaces x = sc.surfaces x :=
  update_of_ne h ..

lemma live_eq_some {object s : ℕ} : sc.live object = some s ↔
    sc.subs.lookup object = some s ∧ ∃ sf, sc.surfaces s = some sf ∧ sf.role = some object := by
  simp [live, Option.filter_eq_some_iff, Option.any_eq_true]

/-- The subsurfaces of a session make a forest: a parent knows each of its children once, no way up comes
back, and a surface with a parent has its role from a wl_subsurface of its own. -/
structure Forest (sc : Scene) : Prop where
  acyclic : Forest.Acyclic sc.parent
  linked : ∀ s p, (sc.children p).count s = if sc.parent s = some p then 1 else 0
  roled : ∀ s, (sc.parent s).isSome → (sc.role s).isSome
  made : ∀ s id, sc.role s = some id → sc.subs.lookup id = some s

end Scene

namespace Shm

def scene (t : Shm) : Scene := ⟨fun s => t.surfaces.lookup s, t.subsurfaces⟩

variable (k : Kernel) {t : Shm} {s : ℕ} {sf : Surface}

lemma scene_insert (t : Shm) (s : ℕ) (sf : Surface) :
    ({ t with surfaces := t.surfaces.insert s sf } : Shm).scene = t.scene.put s (some sf) := by
  unfold scene Scene.put
  congr 1
  funext x
  by_cases hx : x = s
  · subst hx
    rw [update_self, AList.lookup_insert]
  · rw [update_of_ne hx, AList.lookup_insert_ne hx]

lemma scene_erase (t : Shm) (s : ℕ) :
    ({ t with surfaces := t.surfaces.erase s } : Shm).scene = t.scene.put s none := by
  unfold scene Scene.put
  congr 1
  funext x
  by_cases hx : x = s
  · subst hx
    rw [update_self, AList.lookup_erase]
  · rw [update_of_ne hx, AList.lookup_erase_ne hx]

def Shows {α : Type} (x : ShmM α) (t : Shm) (sc : Scene) : Prop :=
  wp x (fun _ t' => t'.scene = sc) (fun _ _ => True) t

lemma wp_sub {σ : Type} {Q : ℕ → σ → Prop} {a b : ℕ} {x : σ} (h : Q (a - b) x) :
    wp (checkedSub a b) Q (fun _ _ => True) x :=
  wp_ite (fun _ => h) fun _ => trivial

lemma wp_unwrapped {α σ : Type} {Q : α → σ → Prop} {o : Option α} {x : σ} (h : ∀ a, o = some a → Q a x) :
    wp (unwrap o) Q (fun _ _ => True) x := by
  cases o with
  | none => trivial
  | some a => exact h a rfl

lemma shows_releasePoolIfUnused (g : ℕ) (t : Shm) : Shows (releasePoolIfUnused k g) t t.scene := by
  unfold Shows releasePoolIfUnused
  simp only [wp_bind, wp_get]
  split
  · rfl
  · refine wp_ite (fun _ => ?_) fun _ => rfl
    rw [wp_bind]
    refine wp_sub ?_
    rw [wp_bind]
    refine wp_sub ?_
    split
    · exact wp_ite (fun _ => rfl) fun _ => rfl
    · rfl

lemma shows_unhold (g : ℕ) (t : Shm) : Shows (unhold k g) t t.scene := by
  unfold Shows unhold
  simp only [wp_bind, wp_get]
  split
  · rw [wp_bind]
    refine wp_sub ?_
    exact shows_releasePoolIfUnused k g _
  · exact shows_releasePoolIfUnused k g t

lemma shows_forM_unhold (freed : List ℕ) (t : Shm) : Shows (freed.forM (unhold k)) t t.scene := by
  refine wp_forM (I := fun t' : Shm => t'.scene = t.scene) freed (fun g _ t' ht => ?_) rfl
  exact wp_mono (shows_unhold k g t') (fun _ _ h => h.trans ht) fun _ _ h => h

section Apply

variable {done : Set ℕ} {sc' : Scene} {todo : List ℕ}
variable {sc : Scene}

/-- Of `sc` the surfaces in `done` have been applied, and those in `todo` are still to be. -/
structure Applying (sc : Scene) (s : ℕ) (done : Set ℕ) (todo : List ℕ) (sc' : Scene) : Prop where
  subs : sc'.subs = sc.subs
  changed : ∀ x ∈ done, sc'.surfaces x = (sc.surfaces x).map applied
  left : ∀ x, x ∉ done → sc'.surfaces x = sc.surfaces x
  closed : ∀ x ∈ done, ∀ c, sc.Passes x c → c ∈ done ∨ c ∈ todo
  reached : ∀ x, x ∈ done ∨ x ∈ todo → ReflTransGen sc.Passes s x
  started : s ∈ done ∨ s ∈ todo

lemma Applying.finish (h : Applying sc s done [] sc') : sc' = sc.apply s := by
  have hdone (x : ℕ) : x ∈ done ↔ ReflTransGen sc.Passes s x := by
    refine ⟨fun hx => h.reached x (.inl hx), fun hx => ?_⟩
    induction hx with
    | refl => exact h.started.resolve_right (not_mem_nil)
    | tail _ hpass ih => exact (h.closed _ ih _ hpass).resolve_right (not_mem_nil)
  have hsurfaces : sc'.surfaces = (sc.apply s).surfaces := by
    funext x
    by_cases hx : x ∈ done
    · simp [h.changed x hx, Scene.apply, (hdone x).mp hx]
    · have hn : ¬ ReflTransGen sc.Passes s x := fun hr => hx ((hdone x).mpr hr)
      simp [h.left x hx, Scene.apply, hn]
  cases sc'
  obtain rfl := h.subs
  exact congrArg (Scene.mk · _) hsurfaces

lemma applied_applied (sf : Surface) : applied (applied sf) = applied sf := by
  obtain h | ⟨l, a, h⟩ := eq_nil_or_concat' sf.held
  · simp [applied, h]
  · simp [applied, h]

lemma Applying.not_cached {x : ℕ} (h : Applying sc s done todo sc') (hx : x ∈ done) :
    (sc'.surfaces x).any (fun sf => sf.sync && sf.cached) = false := by
  rw [h.changed x hx]
  cases sc.surfaces x with
  | none => rfl
  | some sf => simp [Shm.applied]

lemma mem_kids (hs : t.surfaces.lookup s = some sf) {c : ℕ} : c ∈ (t.applyOne s).2.2 ↔ c ∈ sf.children ∧
    ((t.scene.put s (some (applied sf))).surfaces c).any (fun sf => sf.sync && sf.cached) = true := by
  rw [← scene_insert]
  simp [applyOne, hs, scene, applied]

lemma Applying.add {x : ℕ} {kids : List ℕ} {sc'' : Scene} (h : Applying sc s done (x :: todo) sc')
    (hsubs : sc''.subs = sc'.subs) (hx : sc''.surfaces x = (sc.surfaces x).map applied)
    (hne : ∀ y, y ≠ x → sc''.surfaces y = sc'.surfaces y) (hpass : ∀ c, sc.Passes x c → c ∈ insert x done ∨ c ∈ kids)
    (hkids : ∀ c ∈ kids, sc.Passes x c) :
    Applying sc s (insert x done) (kids ++ todo) sc'' where
  subs := hsubs.trans h.subs
  changed y hy := by
    by_cases hyx : y = x
    · exact hyx ▸ hx
    · rw [hne y hyx]
      exact h.changed y (hy.resolve_left hyx)
  left y hy := by
    rw [hne y fun hyx => hy (.inl hyx)]
    exact h.left y fun hin => hy (.inr hin)
  closed y hy c hc := by
    obtain rfl | hy := hy
    · exact (hpass c hc).imp_right fun hin => mem_append_left todo hin
    · obtain hin | hin := h.closed y hy c hc
      · exact .inl (.inr hin)
      · obtain rfl | hin := mem_cons.mp hin
        · exact .inl (.inl rfl)
        · exact .inr (mem_append_right _ hin)
  reached y hy := by
    have hreach := h.reached x (.inr mem_cons_self)
    obtain (rfl | hy) | hy := hy
    · exact hreach
    · exact h.reached y (.inl hy)
    · obtain hy | hy := mem_append.mp hy
      · exact hreach.tail (hkids y hy)
      · exact h.reached y (.inr (mem_cons_of_mem x hy))
  started := by
    obtain hs | hs := h.started
    · exact .inl (.inr hs)
    · obtain rfl | hs := mem_cons.mp hs
      · exact .inl (.inl rfl)
      · exact .inr (mem_append_right _ hs)

lemma Applying.pop {x : ℕ} (h : Applying sc s done (x :: todo) t.scene) :
    Applying sc s (insert x done) ((t.applyOne x).2.2.reverse ++ todo) (t.applyOne x).1.scene := by
  cases hx : t.surfaces.lookup x with
  | none =>
    have hnone : sc.surfaces x = none := by
      by_cases hdone : x ∈ done
      · have hx' := h.changed x hdone
        rw [show t.scene.surfaces x = none from hx] at hx'
        exact map_eq_none_iff.mp hx'.symm
      · exact (h.left x hdone).symm.trans hx
    have hone : t.applyOne x = (t, [], []) := by simp only [applyOne, hx]
    rw [hone]
    refine h.add rfl ?_ (fun _ _ => rfl) (fun c hc => ?_) fun _ hc => by cases hc
    · rw [hnone]
      exact hx
    · have hc := hc.1
      rw [Scene.children, hnone] at hc
      cases hc
  | some sf =>
    obtain ⟨sf0, hsf0, hchildren, happlied⟩ : ∃ sf0, sc.surfaces x = some sf0 ∧ sf.children = sf0.children ∧
        Shm.applied sf = Shm.applied sf0 := by
      by_cases hdone : x ∈ done
      · have hx' := h.changed x hdone
        rw [show t.scene.surfaces x = some sf from hx] at hx'
        obtain ⟨sf0, hsf0, rfl⟩ := map_eq_some_iff.mp hx'.symm
        exact ⟨sf0, hsf0, rfl, applied_applied sf0⟩
      · exact ⟨sf, (h.left x hdone).symm.trans hx, rfl, rfl⟩
    have hscene : (t.applyOne x).1.scene = t.scene.put x (some (Shm.applied sf)) := by
      rw [applyOne_some hx, scene_insert]
    have hchild : sc.children x = sf.children := by rw [Scene.children, hsf0, hchildren, elim_some]
    -- a child that has been applied has no cache, any other is as it was
    have hkid (c : ℕ) : ((t.scene.put x (some (Shm.applied sf))).surfaces c).any (fun sf => sf.sync && sf.cached) = true ↔
        c ∉ insert x done ∧ (sc.surfaces c).any (fun sf => sf.sync && sf.cached) = true := by
      by_cases hcx : c = x
      · subst hcx
        simp [Shm.applied]
      · rw [Scene.put_ne _ hcx]
        by_cases hdone : c ∈ done
        · simp [h.not_cached hdone, hdone]
        · rw [h.left c hdone]
          simp [hcx, hdone]
    rw [hscene]
    refine h.add rfl ?_ (fun y hy => Scene.put_ne _ hy) (fun c hc => ?_) fun c hc => ?_
    · rw [Scene.put_self, hsf0, happlied, map_some]
    · by_cases hin : c ∈ insert x done
      · exact .inl hin
      · refine .inr (mem_reverse.mpr ((mem_kids hx).mpr ⟨hchild ▸ hc.1, (hkid c).mpr ⟨hin, hc.2⟩⟩))
    · obtain ⟨hc, hany⟩ := (mem_kids hx).mp (mem_reverse.mp hc)
      exact ⟨hchild ▸ hc, ((hkid c).mp hany).2⟩

lemma shows_apply (s : ℕ) (t : Shm) : Shows (apply k s) t (t.scene.apply s) := by
  have hloop (n : ℕ) (done : Set ℕ) (todo freed : List ℕ) (t' : Shm) (h : Applying t.scene s done todo t'.scene) :
      Shows (applyLoop n todo freed) t' (t.scene.apply s) := by
    induction n generalizing done todo freed t' with
    | zero =>
      cases todo with
      | nil => exact h.finish
      | cons x todo => trivial
    | succ n ih =>
      cases todo with
      | nil => exact h.finish
      | cons x todo => exact ih _ _ _ _ h.pop
  have hstart : Applying t.scene s ∅ [s] t.scene :=
    ⟨rfl, nofun, fun _ _ => rfl, nofun, fun x hx => mem_singleton.mp (hx.resolve_left id) ▸ .refl,
      .inr (mem_singleton_self s)⟩
  unfold Shows apply
  simp only [wp_bind, wp_get]
  refine wp_mono (hloop _ ∅ [s] [] t hstart) (fun freed t' ht => ?_) fun _ _ h => h
  exact ht ▸ shows_forM_unhold k freed t'

end Apply

lemma scene_orphan (t : Shm) (s : ℕ) (parent : Option ℕ) : (t.orphan s parent).scene = t.scene.orphan s parent := by
  cases parent with
  | none => rfl
  | some p =>
    unfold orphan Scene.orphan
    cases hp : t.surfaces.lookup p with
    | none => simp only [hp, show t.scene.surfaces p = none from hp]
    | some pf =>
      simp only [hp, show t.scene.surfaces p = some pf from hp]
      exact scene_insert _ _ _

lemma shows_endRole (s : ℕ) (t : Shm) : Shows (endRole s) t (t.scene.endRole s) := by
  unfold Shows endRole Scene.endRole
  simp only [wp_bind, wp_get]
  cases hs : t.surfaces.lookup s with
  | none => simp only [show t.scene.surfaces s = none from hs, wp_pure]
  | some sf =>
    simp only [show t.scene.surfaces s = some sf from hs, wp_set]
    rw [scene_orphan, scene_insert]

lemma shows_detach (s : ℕ) (t : Shm) : Shows (detach k s) t (t.scene.detach s) := by
  unfold Shows detach Scene.detach
  simp only [wp_bind, wp_get]
  by_cases hcached : (t.surfaces.lookup s).any Surface.cached = true
  · rw [if_pos hcached, if_pos (show (t.scene.surfaces s).any Surface.cached = true from hcached), wp_bind]
    refine wp_mono (shows_apply k s t) (fun _ t' ht => ?_) fun _ _ h => h
    exact ht ▸ shows_endRole s t'
  · rw [if_neg hcached, if_neg (show ¬ (t.scene.surfaces s).any Surface.cached = true from hcached)]
    exact shows_endRole s t

lemma shows_holdPending (s : ℕ) (t : Shm) : Shows (holdPending s) t (t.scene.hold s) := by
  unfold Shows holdPending Scene.hold
  simp only [wp_bind, wp_get]
  cases hs : t.surfaces.lookup s with
  | none => simp only [show t.scene.surfaces s = none from hs, wp_pure]
  | some sf =>
    simp only [show t.scene.surfaces s = some sf from hs]
    cases hp : sf.pending with
    | none => exact rfl
    | some p =>
      simp only [wp_bind, wp_set]
      refine wp_ite (fun hlast => ?_) fun hlast => wp_ite (fun _ => trivial) fun _ => ?_
      · rw [if_pos hlast]
        exact scene_insert _ _ _
      · rw [if_neg hlast]
        split
        · exact scene_insert _ _ _
        · exact scene_insert _ _ _

lemma up_eq_walk (t : Shm) (s : ℕ) : t.up s = Forest.walk t.scene.parent (size t.subsurfaces + 1) s := by
  have hwalk (n : ℕ) (s : ℕ) : t.upTo n s = Forest.walk t.scene.parent n s := by
    induction n generalizing s with
    | zero => rfl
    | succ n ih =>
      unfold upTo Forest.walk
      have hparent : (t.surfaces.lookup s).bind Surface.parent = t.scene.parent s := rfl
      rw [hparent]
      cases t.scene.parent s with
      | none => rfl
      | some p => exact congrArg (s :: ·) (ih p)
  exact hwalk _ s

lemma chain_up (h : t.scene.Forest) (s : ℕ) : Forest.Chain t.scene.parent s (t.up s) := by
  have hnodes : ∀ v p, t.scene.parent v = some p → v ∈ t.subsurfaces.entries.map Sigma.snd := by
    intro v p hv
    obtain ⟨id, hid⟩ := isSome_iff_exists.mp (h.roled v (by rw [hv]; rfl))
    exact mem_map.mpr ⟨⟨id, v⟩, lookup_entries.mpr (h.made v id hid), rfl⟩
  have hchain := Forest.chain_walk h.acyclic hnodes s
  rw [length_map] at hchain
  rwa [up_eq_walk]

lemma synced_iff (h : t.scene.Forest) (s : ℕ) : t.synced s = true ↔ t.scene.Synced s := by
  simp only [synced, List.any_eq_true, (chain_up h s).mem_iff]
  rfl

lemma shows_commit (h : (t.scene.hold s).Forest) : Shows (commit k s) t (t.scene.commit s) := by
  unfold Shows commit Scene.commit
  rw [wp_bind]
  refine wp_mono (shows_holdPending s t) (fun _ t' ht => ?_) fun _ _ h => h
  rw [← ht] at h ⊢
  simp only [wp_bind, wp_get]
  by_cases hsynced : t'.synced s = true
  · rw [if_pos hsynced, if_pos ((synced_iff h s).mp hsynced)]
    unfold Scene.cache
    cases hs : t'.surfaces.lookup s with
    | none => simp only [show t'.scene.surfaces s = none from hs, wp_pure]
    | some sf =>
      simp only [show t'.scene.surfaces s = some sf from hs, wp_set]
      exact scene_insert _ _ _
  · rw [if_neg hsynced, if_neg fun hs => hsynced ((synced_iff h s).mpr hs)]
    exact shows_apply k s t'

lemma shows_attach (object buffer : ℕ) (t : Shm) :
    Shows (attach object buffer) t (t.scene.perform (.attach object (t.bufferPools.lookup buffer))) :=
  scene_insert _ _ _

lemma wp_getSubsurface (id s p : ℕ) (t : Shm) : wp (getSubsurface id s p)
    (fun _ t' => t.scene.role s = none ∧ s ∉ t.up p ∧ t'.scene = t.scene.adopt id s p) (fun _ _ => True) t := by
  refine wp_ite (fun _ => trivial) fun hfree => ?_
  obtain ⟨hrole, hup⟩ := not_or.mp hfree
  refine ⟨not_isSome_iff_eq_none.mp hrole, hup, ?_⟩
  -- the parent's entry is read after the child's is written
  have hparent (t1 : Shm) (sc : Scene) (h1 : t1.scene = sc) : ({ t1 with
      surfaces := t1.surfaces.insert p { t1.surface p with children := (t1.surface p).children ++ [s] }
      subsurfaces := t1.subsurfaces.insert id s } : Shm).scene =
      { sc.put p (some { sc.surface p with children := (sc.surface p).children ++ [s] }) with
        subs := sc.subs.insert id s } := by
    subst h1
    exact congrArg (fun sc : Scene => { sc with subs := t1.subsurfaces.insert id s }) (scene_insert t1 p _)
  exact hparent _ _ (scene_insert t s _)

lemma surface_eq (hs : t.surfaces.lookup s = some sf) : t.scene.surface s = sf := by
  rw [Scene.surface, show t.scene.surfaces s = some sf from hs, getD_some]

lemma shows_setSync (object : ℕ) (t : Shm) : Shows (setSync object) t (t.scene.setSync object) := by
  unfold Shows setSync Scene.setSync
  simp only [wp_bind, wp_get]
  cases hlive : t.liveSurface object with
  | none => simp only [show t.scene.live object = none from hlive, wp_pure]
  | some s =>
    simp only [show t.scene.live object = some s from hlive, wp_bind]
    refine wp_unwrapped fun sf hs => ?_
    rw [surface_eq hs]
    exact scene_insert _ _ _

open Classical in
lemma shows_desynced (s : ℕ) (sync cached : Bool) (h : t.scene.Forest) :
    Shows (if sync && cached && !t.synced s then apply k s else pure ()) t
      (if sync ∧ cached ∧ ¬ t.scene.Synced s then t.scene.apply s else t.scene) := by
  by_cases happly : sync = true ∧ cached = true ∧ ¬ t.scene.Synced s
  · have hcode : (sync && cached && !t.synced s) = true := by
      simp [happly.1, happly.2.1, mt (synced_iff h s).mp happly.2.2]
    rw [if_pos happly, if_pos hcode]
    exact shows_apply k s t
  · have hcode : ¬ (sync && cached && !t.synced s) = true := by
      intro hcode
      simp only [Bool.and_eq_true, Bool.not_eq_true', ← Bool.not_eq_true] at hcode
      exact happly ⟨hcode.1.1, hcode.1.2, mt (synced_iff h s).mpr hcode.2⟩
    rw [if_neg happly, if_neg hcode]
    exact rfl

lemma shows_setDesync (object : ℕ) (t : Shm) (h : ∀ s, t.scene.live object = some s →
      (t.scene.put s (some { t.scene.surface s with sync := false })).Forest) :
    Shows (setDesync k object) t (t.scene.setDesync object) := by
  unfold Shows setDesync Scene.setDesync
  simp only [wp_bind, wp_get]
  cases hlive : t.liveSurface object with
  | none => simp only [show t.scene.live object = none from hlive, wp_pure]
  | some s =>
    have hforest := h s hlive
    simp only [show t.scene.live object = some s from hlive, wp_bind]
    refine wp_unwrapped fun sf hs => ?_
    rw [surface_eq hs, ← scene_insert] at hforest
    rw [surface_eq hs, ← scene_insert]
    exact shows_desynced k s sf.sync sf.cached hforest

lemma shows_destroySubsurface (object : ℕ) (t : Shm) :
    Shows (destroySubsurface k object) t (t.scene.destroy object) := by
  unfold Shows destroySubsurface Scene.destroy
  simp only [wp_bind, wp_get, wp_set]
  cases hlive : t.liveSurface object with
  | none =>
    simp only [show t.scene.live object = none from hlive]
    rfl
  | some s =>
    simp only [show t.scene.live object = some s from hlive]
    exact shows_detach k s { t with subsurfaces := t.subsurfaces.erase object }

lemma shows_forM_detach (l : List ℕ) (t : Shm) : Shows (l.forM (detach k)) t (l.foldl Scene.detach t.scene) := by
  induction l generalizing t with
  | nil => rfl
  | cons c l ih =>
    refine (wp_bind (detach k c) _).mpr (wp_mono (shows_detach k c t) (fun _ t' ht => ?_) fun _ _ h => h)
    rw [foldl_cons, ← ht]
    exact ih t'

lemma shows_deleteSurface (id : ℕ) (t : Shm) : Shows (deleteSurface k id) t (t.scene.delete id) := by
  unfold Shows deleteSurface Scene.delete
  simp only [wp_bind, wp_get]
  cases hs : t.surfaces.lookup id with
  | none => simp only [show t.scene.surfaces id = none from hs, wp_pure]
  | some sf =>
    simp only [show t.scene.surfaces id = some sf from hs, wp_bind, wp_set, wp_modify]
    refine wp_mono (shows_forM_detach k sf.children _) (fun _ t' ht => ?_) fun _ _ h => h
    rw [scene_erase] at ht
    refine wp_mono (shows_forM_unhold k _ _) (fun _ t'' ht' => ?_) fun _ _ h => h
    rw [ht', scene_orphan, ht]

lemma shows_deletePool (id : ℕ) (t : Shm) : Shows (deletePool k id) t t.scene := by
  unfold Shows deletePool
  simp only [wp_bind, wp_get]
  split
  · rfl
  · simp only [wp_bind, wp_set]
    refine wp_unwrapped fun p _ => ?_
    exact shows_releasePoolIfUnused k _ _

lemma shows_deleteBuffer (id : ℕ) (t : Shm) : Shows (deleteBuffer k id) t t.scene := by
  unfold Shows deleteBuffer
  simp only [wp_bind, wp_get]
  split
  · rfl
  · simp only [wp_bind, wp_set]
    refine wp_unwrapped fun p _ => wp_sub ?_
    exact shows_releasePoolIfUnused k _ _

lemma shows_deleteId (id : ℕ) (t : Shm) : Shows (deleteId k id) t (t.scene.delete id) := by
  unfold Shows deleteId
  simp only [wp_bind]
  refine wp_mono (shows_deletePool k id t) (fun _ t1 h1 => ?_) fun _ _ h => h
  refine wp_mono (shows_deleteBuffer k id t1) (fun _ t2 h2 => ?_) fun _ _ h => h
  rw [← h1, ← h2]
  exact shows_deleteSurface k id t2

lemma shows_createPool (id size : ℕ) (fd : Option Fd) (t : Shm) : Shows (createPool k id size fd) t t.scene := by
  refine wp_ite (fun _ => trivial) fun _ => ?_
  refine wp_ite (fun _ => trivial) fun _ => ?_
  simp only [wp_bind, wp_orRefuse, wp_liftSession, wp_set]
  exact ⟨fun _ _ => ⟨fun _ _ => rfl, fun _ _ => trivial⟩, fun _ => trivial⟩

lemma shows_resize (object size : ℕ) (t : Shm) : Shows (resize object size) t t.scene := by
  unfold Shows resize
  simp only [wp_bind, wp_get, wp_orRefuse]
  refine ⟨fun g _ => wp_unwrapped fun p _ => ?_, fun _ => trivial⟩
  exact wp_ite (fun _ => trivial) fun _ => wp_ite (fun _ => trivial) fun _ => rfl

lemma shows_createBuffer (object id : ℕ) (t : Shm) : Shows (createBuffer object id) t t.scene := by
  unfold Shows createBuffer
  simp only [wp_bind, wp_get, wp_orRefuse, wp_set]
  exact ⟨fun g _ => wp_unwrapped fun p _ => rfl, fun _ => trivial⟩

end Shm

end Kryptik.Wlproxy
