import Kryptik.Lib.Destutter
import Kryptik.Wlproxy.Scene

namespace Kryptik.Wlproxy

open Lib Tables Relation Function

/-- What a commit attaches: the pool of a buffer, none for a buffer without one, and whether there was such a
pool. -/
structure Attachment where
  pool : Option ℕ
  present : Bool

/-- A surface as the protocol has it: what it shows, and the commits that wait for its parent's. A commit need not
attach anything. -/
structure Layer where
  role : Option ℕ := none
  parent : Option ℕ := none
  sync : Bool := false
  children : List ℕ := []
  pending : Option (Option ℕ) := none
  applied : Option Attachment := none
  cache : List (Option Attachment) := []

namespace Layer

def attachments (l : Layer) : List Attachment := l.applied.toList ++ l.cache.reduceOption

def collapse (l : Layer) : Layer := { l with applied := l.attachments.getLast?, cache := [] }

def enqueue (known : ℕ → Bool) (l : Layer) : Layer :=
  { l with pending := none, cache := l.cache ++ [l.pending.map (fun pool => ⟨pool, pool.any known⟩)] }

end Layer

structure Layers where
  surfaces : ℕ → Option Layer
  subs : Table ℕ ℕ

namespace Layers

variable (ls : Layers)

def parent (s : ℕ) : Option ℕ := (ls.surfaces s).bind Layer.parent

def Synced (s : ℕ) : Prop :=
  ∃ a, ReflTransGen (Forest.Up ls.parent) s a ∧ (ls.surfaces a).any Layer.sync = true

def Passes (s c : ℕ) : Prop :=
  c ∈ (ls.surfaces s).elim [] Layer.children ∧ (ls.surfaces c).any (fun l => l.sync && !l.cache.isEmpty) = true

def put (s : ℕ) (l : Option Layer) : Layers := { ls with surfaces := update ls.surfaces s l }

def surface (s : ℕ) : Layer := (ls.surfaces s).getD {}

open Classical in
noncomputable def apply (s : ℕ) : Layers :=
  { ls with surfaces := fun x => (ls.surfaces x).map (fun l => if ReflTransGen ls.Passes s x then l.collapse else l) }

def enqueue (known : ℕ → Bool) (s : ℕ) : Layers :=
  match ls.surfaces s with
  | none => ls
  | some l => ls.put s (some (l.enqueue known))

open Classical in
noncomputable def commit (known : ℕ → Bool) (s : ℕ) : Layers :=
  if (ls.enqueue known s).Synced s then ls.enqueue known s else (ls.enqueue known s).apply s

def orphan (s : ℕ) (parent : Option ℕ) : Layers :=
  match parent with
  | none => ls
  | some p => match ls.surfaces p with
    | none => ls
    | some l => ls.put p (some { l with children := l.children.filter (· ≠ s) })

def endRole (s : ℕ) : Layers :=
  match ls.surfaces s with
  | none => ls
  | some l => (ls.put s (some { l with parent := none, role := none, sync := false })).orphan s l.parent

noncomputable def detach (s : ℕ) : Layers :=
  (if (ls.surfaces s).any (fun l => !l.cache.isEmpty) then ls.apply s else ls).endRole s

def adopt (id s p : ℕ) : Layers :=
  let ls := ls.put s (some { ls.surface s with role := some id, parent := some p, sync := true })
  { ls.put p (some { ls.surface p with children := (ls.surface p).children ++ [s] }) with
    subs := ls.subs.insert id s }

def live (object : ℕ) : Option ℕ :=
  (ls.subs.lookup object).filter (fun s => (ls.surfaces s).any (fun l => l.role = some object))

def setSync (object : ℕ) : Layers :=
  match ls.live object with
  | none => ls
  | some s => ls.put s (some { ls.surface s with sync := true })

open Classical in
noncomputable def setDesync (object : ℕ) : Layers :=
  match ls.live object with
  | none => ls
  | some s =>
    let l := ls.surface s
    let ls := ls.put s (some { l with sync := false })
    if l.sync ∧ l.cache ≠ [] ∧ ¬ ls.Synced s then ls.apply s else ls

noncomputable def destroy (object : ℕ) : Layers :=
  let ls' := { ls with subs := ls.subs.erase object }
  match ls.live object with
  | none => ls'
  | some s => ls'.detach s

noncomputable def delete (id : ℕ) : Layers :=
  match ls.surfaces id with
  | none => ls
  | some l => (l.children.foldl detach (ls.put id none)).orphan id l.parent

/-- What a message does, when `known` are the pools there are. -/
noncomputable def perform (known : ℕ → Bool) : Deed → Layers
  | .nothing => ls
  | .attach s pool => ls.put s (some { ls.surface s with pending := some pool })
  | .commit s => ls.commit known s
  | .adopt id s p => ls.adopt id s p
  | .setSync object => ls.setSync object
  | .setDesync object => ls.setDesync object
  | .destroy object => ls.destroy object
  | .delete id => ls.delete id

end Layers

/-- The pools a surface holds mirror what its commits attach. -/
def Layer.flat (l : Layer) : Surface where
  role := l.role
  parent := l.parent
  sync := l.sync
  cached := !l.cache.isEmpty
  children := l.children
  pending := l.pending
  held := (l.attachments.map Attachment.pool).destutter (· ≠ ·)

def Layers.flat (ls : Layers) : Scene := ⟨fun s => (ls.surfaces s).map Layer.flat, ls.subs⟩

lemma Layer.flat_collapse (l : Layer) : l.collapse.flat = Shm.applied l.flat := by
  have hlast : (l.collapse.attachments.map Attachment.pool).destutter (· ≠ ·) =
      ((l.attachments.map Attachment.pool).destutter (· ≠ ·)).getLast?.toList := by
    rw [getLast?_destutter, List.getLast?_map]
    simp only [collapse, attachments, List.reduceOption_nil, List.append_nil]
    generalize (l.applied.toList ++ l.cache.reduceOption).getLast? = a
    cases a <;> rfl
  simp only [flat, Shm.applied, hlast]
  rfl

namespace Layers

variable {ls : Layers}

@[simp] lemma surfaces_flat (s : ℕ) : ls.flat.surfaces s = (ls.surfaces s).map Layer.flat := rfl

lemma flat_put (s : ℕ) (l : Option Layer) : (ls.put s l).flat = ls.flat.put s (l.map Layer.flat) := by
  have hput (x : ℕ) : (update ls.surfaces s l x).map Layer.flat =
      update ls.flat.surfaces s (l.map Layer.flat) x := by
    by_cases hx : x = s
    · subst hx
      rw [update_self, update_self]
    · rw [update_of_ne hx, update_of_ne hx, surfaces_flat]
  exact congrArg (Scene.mk · ls.subs) (funext hput)

lemma surface_flat (s : ℕ) : ls.flat.surface s = (ls.surface s).flat := by
  rw [Scene.surface, surface, surfaces_flat]
  cases ls.surfaces s <;> rfl

lemma parent_flat : ls.flat.parent = ls.parent := by
  funext s
  simp only [Scene.parent, flat, parent]
  cases ls.surfaces s <;> rfl

lemma synced_flat (s : ℕ) : ls.flat.Synced s ↔ ls.Synced s := by
  unfold Scene.Synced Synced
  rw [parent_flat]
  simp only [flat, Option.any_map]
  rfl

lemma passes_flat : ls.flat.Passes = ls.Passes := by
  funext s c
  simp only [Scene.Passes, Passes, Scene.children, flat, Option.any_map]
  cases ls.surfaces s <;> rfl

lemma flat_apply (s : ℕ) : (ls.apply s).flat = ls.flat.apply s := by
  have happly (x : ℕ) : ((ls.apply s).surfaces x).map Layer.flat = (ls.flat.apply s).surfaces x := by
    simp only [apply, Scene.apply, surfaces_flat, Option.map_map]
    congr 1
    funext l
    simp only [comp_apply]
    by_cases hx : ReflTransGen ls.Passes s x
    · rw [if_pos hx, if_pos (passes_flat ▸ hx), l.flat_collapse]
    · rw [if_neg hx, if_neg (passes_flat ▸ hx)]
  exact congrArg (Scene.mk · ls.subs) (funext happly)

lemma flat_orphan (s : ℕ) (p : Option ℕ) : (ls.orphan s p).flat = ls.flat.orphan s p := by
  cases p with
  | none => rfl
  | some p =>
    simp only [orphan, Scene.orphan, surfaces_flat]
    cases ls.surfaces p with
    | none => rfl
    | some l => exact flat_put p _

lemma flat_endRole (s : ℕ) : (ls.endRole s).flat = ls.flat.endRole s := by
  simp only [endRole, Scene.endRole, surfaces_flat]
  cases ls.surfaces s with
  | none => rfl
  | some l =>
    rw [flat_orphan, flat_put]
    rfl

lemma flat_detach (s : ℕ) : (ls.detach s).flat = ls.flat.detach s := by
  have hc : (ls.flat.surfaces s).any Surface.cached = (ls.surfaces s).any (fun l => !l.cache.isEmpty) := by
    simp only [flat, Option.any_map]
    rfl
  rw [detach, Scene.detach, flat_endRole, hc]
  split
  · rw [flat_apply]
  · rfl

end Layers

namespace Scene

variable {sf : Surface}
variable {sc : Scene} {s : ℕ}

lemma put_put (sf sf' : Option Surface) : (sc.put s sf).put s sf' = sc.put s sf' :=
  congrArg (Scene.mk · sc.subs) (update_idem ..)

lemma cache_some (h : sc.surfaces s = some sf) : sc.cache s = sc.put s (some { sf with cached := true }) := by
  rw [cache, h]

lemma synced_put {sf' : Surface} (h : sc.surfaces s = some sf) (hp : sf'.parent = sf.parent) (hs : sf'.sync = sf.sync)
    (x : ℕ) : (sc.put s (some sf')).Synced x ↔ sc.Synced x := by
  have hparent : (sc.put s (some sf')).parent = sc.parent := by
    funext y
    by_cases hy : y = s
    · subst hy
      rw [parent, parent, put_self, h, Option.bind_some, Option.bind_some, hp]
    · rw [parent, parent, put_ne _ hy]
  have hsync (y : ℕ) : ((sc.put s (some sf')).surfaces y).any Surface.sync = (sc.surfaces y).any Surface.sync := by
    by_cases hy : y = s
    · subst hy
      rw [put_self, h, Option.any_some, Option.any_some, hs]
    · rw [put_ne _ hy]
  unfold Synced
  simp [hparent, hsync]

lemma apply_cache (h : sc.surfaces s = some sf) (hs : ¬ sc.Synced s) : (sc.cache s).apply s = sc.apply s := by
  have hsync : sf.sync = false := by
    rw [← Bool.not_eq_true]
    exact fun hsync => hs ⟨s, .refl, by rw [h, Option.any_some, hsync]⟩
  rw [cache_some h]
  have hpasses : (sc.put s (some { sf with cached := true })).Passes = sc.Passes := by
    funext x c
    have hchildren : (sc.put s (some { sf with cached := true })).children x = sc.children x := by
      by_cases hx : x = s
      · subst hx
        simp [children, h]
      · rw [children, children, put_ne _ hx]
    have hany : ((sc.put s (some { sf with cached := true })).surfaces c).any (fun sf => sf.sync && sf.cached) =
        (sc.surfaces c).any (fun sf => sf.sync && sf.cached) := by
      by_cases hc : c = s
      · subst hc
        simp [h, hsync]
      · rw [put_ne _ hc]
    unfold Passes
    rw [hchildren, hany]
  have happly (x : ℕ) : ((sc.put s (some { sf with cached := true })).apply s).surfaces x = (sc.apply s).surfaces x := by
    simp only [apply]
    by_cases hx : ReflTransGen sc.Passes s x
    · simp only [if_pos hx, if_pos (show ReflTransGen (sc.put s (some { sf with cached := true })).Passes s x from
        hpasses ▸ hx)]
      by_cases he : x = s
      · subst he
        rw [put_self, h]
        rfl
      · rw [put_ne _ he]
    · have he : x ≠ s := fun he => hx (he ▸ .refl)
      simp only [if_neg hx, if_neg (show ¬ ReflTransGen (sc.put s (some { sf with cached := true })).Passes s x from
        hpasses ▸ hx)]
      rw [put_ne _ he]
  exact congrArg (Scene.mk · sc.subs) (funext happly)

end Scene

lemma Layer.flat_enqueue (known : ℕ → Bool) (l : Layer) : (l.enqueue known).flat = { l.flat with
    pending := none
    cached := true
    held := match l.pending with
      | none => l.flat.held
      | some p => if l.flat.held.getLast? = some p then l.flat.held else l.flat.held ++ [p] } := by
  have hcached : (!(l.enqueue known).cache.isEmpty) = true := by simp [enqueue]
  have hheld : ((l.enqueue known).attachments.map Attachment.pool).destutter (· ≠ ·) = match l.pending with
      | none => l.flat.held
      | some p => if l.flat.held.getLast? = some p then l.flat.held else l.flat.held ++ [p] := by
    cases hp : l.pending with
    | none => simp [enqueue, attachments, hp, flat, List.reduceOption_append, List.reduceOption_singleton]
    | some p =>
      have happend : (l.enqueue known).attachments.map Attachment.pool = l.attachments.map Attachment.pool ++ [p] := by
        simp [enqueue, attachments, hp, List.reduceOption_append, List.reduceOption_singleton]
      rw [happend, destutter_concat]
      rfl
  rw [flat, hcached, hheld]
  rfl

namespace Layers

variable {a : Attachment}
variable {ls : Layers}

lemma flat_enqueue (known : ℕ → Bool) (s : ℕ) : (ls.enqueue known s).flat = (ls.flat.hold s).cache s := by
  unfold enqueue
  cases hs : ls.surfaces s with
  | none => simp [Scene.hold, Scene.cache, hs]
  | some l =>
    simp only [flat_put, Option.map_some, l.flat_enqueue]
    have hflat : ls.flat.surfaces s = some l.flat := by rw [surfaces_flat, hs, Option.map_some]
    have hpending : l.flat.pending = l.pending := rfl
    simp only [Scene.hold, hflat, hpending]
    cases hp : l.pending with
    | none =>
      rw [Scene.cache_some hflat]
      simp [Layer.flat, hp]
    | some p => rw [Scene.cache_some (Scene.put_self _ _), Scene.put_put]

lemma flat_commit (known : ℕ → Bool) (s : ℕ) : (ls.commit known s).flat = ls.flat.commit s := by
  unfold commit Scene.commit
  have hsynced : (ls.enqueue known s).Synced s ↔ (ls.flat.hold s).Synced s := by
    rw [← synced_flat, flat_enqueue]
    cases hs : (ls.flat.hold s).surfaces s with
    | none => rw [Scene.cache, hs]
    | some sf =>
      rw [Scene.cache_some hs]
      exact Scene.synced_put hs (show ({ sf with cached := true } : Surface).parent = sf.parent from rfl) rfl s
  by_cases h : (ls.flat.hold s).Synced s
  · rw [if_pos h, if_pos (hsynced.mpr h), flat_enqueue]
  · rw [if_neg h, if_neg fun hc => h (hsynced.mp hc), flat_apply, flat_enqueue]
    cases hs : (ls.flat.hold s).surfaces s with
    | none => rw [Scene.cache, hs]
    | some sf => exact Scene.apply_cache hs h

lemma flat_adopt (id s p : ℕ) : (ls.adopt id s p).flat = ls.flat.adopt id s p := by
  have hfirst : (ls.put s (some { ls.surface s with role := some id, parent := some p, sync := true })).flat =
      ls.flat.put s (some { ls.flat.surface s with role := some id, parent := some p, sync := true }) := by
    rw [flat_put, surface_flat]
    rfl
  have hsecond (ls : Layers) : (ls.put p (some { ls.surface p with children := (ls.surface p).children ++ [s] })).flat =
      ls.flat.put p (some { ls.flat.surface p with children := (ls.flat.surface p).children ++ [s] }) := by
    rw [flat_put, surface_flat]
    rfl
  have hboth := (hsecond _).trans (congrArg (fun sc : Scene =>
    sc.put p (some { sc.surface p with children := (sc.surface p).children ++ [s] })) hfirst)
  exact congrArg (fun sc : Scene => { sc with subs := ls.subs.insert id s }) hboth

lemma live_flat (object : ℕ) : ls.flat.live object = ls.live object := by
  unfold Scene.live live
  congr 1
  funext s
  rw [surfaces_flat, Option.any_map]
  rfl

lemma flat_setSync (object : ℕ) : (ls.setSync object).flat = ls.flat.setSync object := by
  rw [setSync, Scene.setSync, live_flat]
  cases ls.live object with
  | none => rfl
  | some s =>
    simp only [flat_put, surface_flat]
    rfl

lemma flat_setDesync (object : ℕ) : (ls.setDesync object).flat = ls.flat.setDesync object := by
  rw [setDesync, Scene.setDesync, live_flat]
  cases ls.live object with
  | none => rfl
  | some s =>
    have hput : (ls.put s (some { ls.surface s with sync := false })).flat =
        ls.flat.put s (some { ls.flat.surface s with sync := false }) := by
      rw [flat_put, surface_flat]
      rfl
    have hcond : ((ls.flat.surface s).sync ∧ (ls.flat.surface s).cached ∧
          ¬ (ls.flat.put s (some { ls.flat.surface s with sync := false })).Synced s) ↔
        (ls.surface s).sync ∧ (ls.surface s).cache ≠ [] ∧
          ¬ (ls.put s (some { ls.surface s with sync := false })).Synced s := by
      rw [← hput, synced_flat, surface_flat]
      simp [Layer.flat]
    by_cases h : (ls.surface s).sync ∧ (ls.surface s).cache ≠ [] ∧
        ¬ (ls.put s (some { ls.surface s with sync := false })).Synced s
    · simp [if_pos h, if_pos (hcond.mpr h), flat_apply, hput]
    · simp [if_neg h, if_neg fun hc => h (hcond.mp hc), hput]

lemma flat_destroy (object : ℕ) : (ls.destroy object).flat = ls.flat.destroy object := by
  rw [destroy, Scene.destroy, live_flat]
  cases ls.live object with
  | none => rfl
  | some s => exact flat_detach s

lemma flat_delete (id : ℕ) : (ls.delete id).flat = ls.flat.delete id := by
  have hfold (cs : List ℕ) (ls : Layers) : (cs.foldl detach ls).flat = cs.foldl Scene.detach ls.flat := by
    induction cs generalizing ls with
    | nil => rfl
    | cons c cs ih => rw [List.foldl_cons, List.foldl_cons, ih, flat_detach]
  rw [delete, Scene.delete, surfaces_flat]
  cases ls.surfaces id with
  | none => rfl
  | some l =>
    simp only [Option.map_some, flat_orphan, hfold, flat_put]
    rfl

lemma flat_perform (known : ℕ → Bool) (deed : Deed) : (ls.perform known deed).flat = ls.flat.perform deed := by
  cases deed with
  | nothing => rfl
  | attach s pool =>
    simp only [perform, Scene.perform, flat_put, surface_flat]
    rfl
  | commit s => exact flat_commit known s
  | adopt id s p => exact flat_adopt id s p
  | setSync object => exact flat_setSync object
  | setDesync object => exact flat_setDesync object
  | destroy object => exact flat_destroy object
  | delete id => exact flat_delete id

def attachments (ls : Layers) (s : ℕ) : List Attachment := (ls.surfaces s).elim [] Layer.attachments

def Within (ls ls' : Layers) : Prop := ∀ x, ls'.attachments x ⊆ ls.attachments x

lemma Within.refl (ls : Layers) : Within ls ls := fun _ _ h => h

lemma Within.trans {ls ls' ls'' : Layers} (h : Within ls ls') (h' : Within ls' ls'') : Within ls ls'' :=
  fun x _ ha => h x (h' x ha)

lemma attachments_surface (s : ℕ) : (ls.surface s).attachments = ls.attachments s := by
  unfold surface attachments
  cases ls.surfaces s <;> rfl

variable {s x : ℕ}

lemma attachments_put {l : Option Layer} (ha : a ∈ (ls.put s l).attachments x) :
    a ∈ ls.attachments x ∨ x = s ∧ a ∈ l.elim [] Layer.attachments := by
  have hput : (ls.put s l).attachments x = (update ls.surfaces s l x).elim [] Layer.attachments := rfl
  rw [hput] at ha
  by_cases hx : x = s
  · rw [hx, update_self] at ha
    exact .inr ⟨hx, ha⟩
  · rw [update_of_ne hx] at ha
    exact .inl ha

lemma Within.put {l : Option Layer} (h : l.elim [] Layer.attachments ⊆ ls.attachments s) :
    Within ls (ls.put s l) := by
  intro x a ha
  obtain hold | ⟨rfl, hnew⟩ := attachments_put ha
  · exact hold
  · exact h hnew

lemma Within.apply (ls : Layers) (s : ℕ) : Within ls (ls.apply s) := by
  intro x a ha
  unfold attachments at ha ⊢
  simp only [Layers.apply] at ha
  cases hx : ls.surfaces x with
  | none => rw [hx] at ha; exact ha
  | some l =>
    simp only [hx, Option.map_some, Option.elim_some] at ha ⊢
    split at ha
    · simp only [Layer.collapse, Layer.attachments, List.reduceOption_nil, List.append_nil, Option.mem_toList] at ha
      exact List.mem_of_getLast? ha
    · exact ha

lemma Within.orphan (ls : Layers) (s : ℕ) (p : Option ℕ) : Within ls (ls.orphan s p) := by
  unfold Layers.orphan
  split
  · exact .refl ls
  · split
    · exact .refl ls
    · rename_i hp
      apply Within.put
      rw [attachments, hp]
      exact List.Subset.refl _

lemma Within.detach (ls : Layers) (s : ℕ) : Within ls (ls.detach s) := by
  have hend (ls : Layers) : Within ls (ls.endRole s) := by
    unfold endRole
    split
    · exact .refl ls
    · rename_i hs
      refine .trans (.put ?_) (.orphan _ s _)
      rw [attachments, hs]
      exact List.Subset.refl _
  unfold Layers.detach
  split
  · exact .trans (.apply ls s) (hend _)
  · exact hend ls

lemma Within.surface (ls : Layers) (s : ℕ) (l : Layer) (h : l.attachments = (ls.surface s).attachments) :
    Within ls (ls.put s (some l)) := by
  apply Within.put
  rw [Option.elim_some, h, attachments_surface]
  exact List.Subset.refl _

lemma attachments_enqueue {known : ℕ → Bool} (ha : a ∈ (ls.enqueue known s).attachments x) :
    a ∈ ls.attachments x ∨ a.present = a.pool.any known := by
  unfold enqueue at ha
  split at ha
  · exact .inl ha
  rename_i l hs
  obtain hold | ⟨rfl, hnew⟩ := attachments_put ha
  · exact .inl hold
  rw [attachments, hs]
  simp only [Option.elim_some, Layer.attachments, Layer.enqueue, List.reduceOption_append, List.mem_append] at hnew ⊢
  obtain hold | hold | hnew := hnew
  · exact .inl (.inl hold)
  · exact .inl (.inr hold)
  · cases hp : l.pending with
    | none => simp [hp, List.reduceOption_singleton] at hnew
    | some pool =>
      obtain rfl : a = ⟨pool, pool.any known⟩ := by simpa [hp, List.reduceOption_singleton] using hnew
      exact .inr rfl

lemma attachments_perform {known : ℕ → Bool} {deed : Deed} (ha : a ∈ (ls.perform known deed).attachments x) :
    a ∈ ls.attachments x ∨ a.present = a.pool.any known := by
  cases deed with
  | nothing => exact .inl ha
  | attach s pool =>
    exact .inl (Within.surface ls s { ls.surface s with pending := some pool } rfl x ha)
  | commit s =>
    simp only [perform, commit] at ha
    split at ha
    · exact attachments_enqueue ha
    · exact attachments_enqueue (Within.apply _ s x ha)
  | adopt id s p =>
    have h1 := Within.surface ls s { ls.surface s with role := some id, parent := some p, sync := true } rfl
    have h2 (ls : Layers) :=
      Within.surface ls p { ls.surface p with children := (ls.surface p).children ++ [s] } rfl
    exact .inl (h1.trans (h2 _) x ha)
  | setSync object =>
    simp only [perform, setSync] at ha
    split at ha
    · exact .inl ha
    · rename_i s _
      exact .inl (Within.surface ls s { ls.surface s with sync := true } rfl x ha)
  | setDesync object =>
    simp only [perform, setDesync] at ha
    split at ha
    · exact .inl ha
    · rename_i s _
      have h1 := Within.surface ls s { ls.surface s with sync := false } rfl
      split at ha
      · exact .inl (h1.trans (.apply _ s) x ha)
      · exact .inl (h1 x ha)
  | destroy object =>
    simp only [perform, destroy] at ha
    split at ha
    · exact .inl ha
    · exact .inl (Within.detach { ls with subs := ls.subs.erase object } _ x ha)
  | delete id =>
    have hfold (cs : List ℕ) (ls : Layers) : Within ls (cs.foldl Layers.detach ls) := by
      induction cs generalizing ls with
      | nil => exact .refl ls
      | cons c cs ih => exact .trans (.detach ls c) (ih _)
    simp only [perform, delete] at ha
    split at ha
    · exact .inl ha
    · rename_i l _
      have h1 : Within ls (ls.put id none) := .put (List.nil_subset _)
      exact .inl ((h1.trans (hfold l.children _)).trans (.orphan _ id _) x ha)

end Layers

end Kryptik.Wlproxy
