import Mathlib
import SliceAgent.Proofs.HostEffects
import SliceAgent.Proofs.SpecFiles

/-!
Effects on files stay at the places that their paths lead to. Over trees that have these places and their
directories in common an effect comes to the same there (`Host.applyAll_agreesOn`), and it changes
nothing elsewhere (`Host.applyAll_off`).
-/
namespace SliceAgent

namespace FileTree

variable {t t' t'' : FileTree} {K L : Set String} {path source target : String} {place : Place}
  {content : ByteArray}

def keysAt (t : FileTree) (path : String) : Set String :=
  {key | ∃ place, t.locate path = .ok place ∧ place.key = key}

theorem SameDirectories.keysAt (h : t.SameDirectories t') : t'.keysAt path = t.keysAt path := by
  ext key
  simp only [FileTree.keysAt, h.locate]

theorem Apart.disjoint_keysAt (h : t.Apart source target) :
    Disjoint (t.keysAt source) (t.keysAt target) := by
  rw [Set.disjoint_left]
  rintro _ ⟨p, hp, rfl⟩ ⟨q, hq, hkey⟩
  exact h p q hp hq hkey.symm

/-- Trees that have their directories in common, and what stands at certain keys. -/
structure AgreesOn (K : Set String) (t t' : FileTree) : Prop where
  directories : t.SameDirectories t'
  nodes : Set.EqOn t'.nodes.find? t.nodes.find? K

namespace AgreesOn

theorem refl (K : Set String) (t : FileTree) : t.AgreesOn K t := ⟨.refl t, Set.eqOn_refl _ _⟩

theorem symm (h : t.AgreesOn K t') : t'.AgreesOn K t := ⟨h.directories.symm, h.nodes.symm⟩

theorem trans (h : t.AgreesOn K t') (h' : t'.AgreesOn K t'') : t.AgreesOn K t'' :=
  ⟨h.directories.trans h'.directories, h'.nodes.trans h.nodes⟩

theorem mono (h : t.AgreesOn L t') (hKL : K ⊆ L) : t.AgreesOn K t' := ⟨h.directories, h.nodes.mono hKL⟩

theorem node?_eq (h : t.AgreesOn K t') (hplace : place.key ∈ K) : t'.node? place = t.node? place := by
  cases place with
  | nil => rfl
  | cons name outer => exact h.nodes hplace

theorem put (h : t.AgreesOn K t') (hnode : t.node? place ≠ some .directory) :
    (t.put place (.file content)).AgreesOn K (t'.put place (.file content)) := by
  have hnode' : t'.node? place ≠ some .directory := fun hdir => hnode ((h.directories place).1 hdir)
  refine ⟨(sameDirectories_put hnode).symm.trans (h.directories.trans (sameDirectories_put hnode')),
    fun key hkey => ?_⟩
  rw [FileTree.put, FileTree.put, Dict.find?_insert, Dict.find?_insert, h.nodes hkey]

theorem erase (h : t.AgreesOn K t') (hnode : t.node? place ≠ some .directory) :
    (t.erase place).AgreesOn K (t'.erase place) := by
  have hnode' : t'.node? place ≠ some .directory := fun hdir => hnode ((h.directories place).1 hdir)
  refine ⟨(sameDirectories_erase hnode).symm.trans
    (h.directories.trans (sameDirectories_erase hnode')), fun key hkey => ?_⟩
  rw [FileTree.erase, FileTree.erase, Dict.find?_erase, Dict.find?_erase, h.nodes hkey]

end AgreesOn

section Local

variable {s : FileTree}

theorem AgreesOn.write (h : t.AgreesOn K t') (hK : t.keysAt path ⊆ K)
    (hw : t.write path content = .ok s) :
    ∃ s', t'.write path content = .ok s' ∧ s.AgreesOn K s' := by
  obtain ⟨place, hplace, hnode, rfl⟩ := write_ok_iff.1 hw
  have hnode' : t'.node? place ≠ some .directory := by
    rw [h.node?_eq (hK ⟨place, hplace, rfl⟩)]
    exact hnode
  exact ⟨_, write_ok_iff.2 ⟨place, h.directories.locate.2 hplace, hnode', rfl⟩, h.put hnode⟩

theorem AgreesOn.remove (h : t.AgreesOn K t') (hK : t.keysAt path ⊆ K)
    (hr : t.remove path = .ok s) : ∃ s', t'.remove path = .ok s' ∧ s.AgreesOn K s' := by
  obtain ⟨place, old, hplace, hnode, rfl⟩ := remove_ok_iff.1 hr
  have hnode' : t'.node? place = some (.file old) := by
    rw [h.node?_eq (hK ⟨place, hplace, rfl⟩), hnode]
  refine ⟨_, remove_ok_iff.2 ⟨place, old, h.directories.locate.2 hplace, hnode', rfl⟩, h.erase ?_⟩
  simp [hnode]

theorem AgreesOn.rename (h : t.AgreesOn K t') (hsource : t.keysAt source ⊆ K)
    (htarget : t.keysAt target ⊆ K) (hr : t.rename source target = .ok s) :
    ∃ s', t'.rename source target = .ok s' ∧ s.AgreesOn K s' := by
  obtain ⟨p, q, old, hp, hq, hnode, hfree, rfl⟩ := rename_ok_iff.1 hr
  have hnode' : t'.node? p = some (.file old) := by
    rw [h.node?_eq (hsource ⟨p, hp, rfl⟩), hnode]
  have hfree' : t'.node? q ≠ some .directory := by
    rw [h.node?_eq (htarget ⟨q, hq, rfl⟩)]
    exact hfree
  have hfile : t.node? p ≠ some .directory := by simp [hnode]
  refine ⟨_, rename_ok_iff.2 ⟨p, q, old, h.directories.locate.2 hp, h.directories.locate.2 hq,
    hnode', hfree', rfl⟩, (h.erase hfile).put fun hdir => hfree ?_⟩
  exact (sameDirectories_erase hfile q).1 hdir

theorem AgreesOn.getD (h : t.AgreesOn K t') (change : FileTree → Except FileError FileTree)
    (hok : ∀ s, change t = .ok s → ∃ s', change t' = .ok s' ∧ s.AgreesOn K s')
    (hok' : ∀ s', change t' = .ok s' → ∃ s, change t = .ok s ∧ s'.AgreesOn K s) :
    ((change t).toOption.getD t).AgreesOn K ((change t').toOption.getD t') := by
  cases ht : change t with
  | ok s =>
    obtain ⟨s', ht', hs⟩ := hok s ht
    rw [ht']
    exact hs
  | error e =>
    cases ht' : change t' with
    | ok s' =>
      obtain ⟨s, hs, _⟩ := hok' s' ht'
      cases ht.symm.trans hs
    | error e' => exact h

theorem put_off (hnode : t.node? place ≠ some .directory) (hplace : place.key ∈ K) :
    t.AgreesOn Kᶜ (t.put place (.file content)) := by
  refine ⟨sameDirectories_put hnode, fun key hkey => ?_⟩
  rw [put, Dict.find?_insert, if_neg]
  rintro rfl
  exact hkey hplace

theorem erase_off (hnode : t.node? place ≠ some .directory) (hplace : place.key ∈ K) :
    t.AgreesOn Kᶜ (t.erase place) := by
  refine ⟨sameDirectories_erase hnode, fun key hkey => ?_⟩
  rw [erase, Dict.find?_erase, if_neg]
  rintro rfl
  exact hkey hplace

theorem write_off (hK : t.keysAt path ⊆ K) (hw : t.write path content = .ok s) : t.AgreesOn Kᶜ s := by
  obtain ⟨place, hplace, hnode, rfl⟩ := write_ok_iff.1 hw
  exact put_off hnode (hK ⟨place, hplace, rfl⟩)

theorem remove_off (hK : t.keysAt path ⊆ K) (hr : t.remove path = .ok s) : t.AgreesOn Kᶜ s := by
  obtain ⟨place, old, hplace, hnode, rfl⟩ := remove_ok_iff.1 hr
  exact erase_off (by simp [hnode]) (hK ⟨place, hplace, rfl⟩)

theorem rename_off (hsource : t.keysAt source ⊆ K) (htarget : t.keysAt target ⊆ K)
    (hr : t.rename source target = .ok s) : t.AgreesOn Kᶜ s := by
  obtain ⟨p, q, old, hp, hq, hnode, hfree, rfl⟩ := rename_ok_iff.1 hr
  have hfile : t.node? p ≠ some .directory := by simp [hnode]
  refine (erase_off hfile (hsource ⟨p, hp, rfl⟩)).trans (put_off (fun hdir => hfree ?_) (htarget ⟨q, hq, rfl⟩))
  exact (sameDirectories_erase hfile q).1 hdir

end Local

end FileTree

namespace HostEffect

def keys (t : FileTree) : HostEffect → Set String
  | write path _ => t.keysAt path
  | rename source target => t.keysAt source ∪ t.keysAt target
  | remove path => t.keysAt path
  | record _ => ∅

theorem keys_of_sameDirectories {t t' : FileTree} (h : t.SameDirectories t') (e : HostEffect) :
    e.keys t' = e.keys t := by
  cases e <;> simp only [keys, h.keysAt]

end HostEffect

namespace Host

open FileTree

variable {h k : Host} {K : Set String} {e : HostEffect} {es : List HostEffect}

theorem apply_agreesOn (hfiles : h.files.AgreesOn K k.files) (he : e.keys h.files ⊆ K) :
    (h.apply e).files.AgreesOn K (k.apply e).files := by
  have he' : e.keys k.files ⊆ K := (e.keys_of_sameDirectories hfiles.directories).trans_subset he
  cases e with
  | record c => exact hfiles
  | write path content =>
    exact hfiles.getD (·.write path content) (fun _ => hfiles.write he)
      fun _ => hfiles.symm.write he'
  | rename source target =>
    obtain ⟨hsource, htarget⟩ := Set.union_subset_iff.1 he
    obtain ⟨hsource', htarget'⟩ := Set.union_subset_iff.1 he'
    exact hfiles.getD (·.rename source target) (fun _ => hfiles.rename hsource htarget)
      fun _ => hfiles.symm.rename hsource' htarget'
  | remove path =>
    exact hfiles.getD (·.remove path) (fun _ => hfiles.remove he)
      fun _ => hfiles.symm.remove he'

theorem apply_off (he : e.keys h.files ⊆ K) : h.files.AgreesOn Kᶜ (h.apply e).files := by
  cases e with
  | record c => exact .refl _ _
  | write path content =>
    rw [apply]
    cases hw : h.files.write path content with
    | error e => exact .refl _ _
    | ok files => exact write_off he hw
  | rename source target =>
    obtain ⟨hsource, htarget⟩ := Set.union_subset_iff.1 he
    rw [apply]
    cases hr : h.files.rename source target with
    | error e => exact .refl _ _
    | ok files => exact rename_off hsource htarget hr
  | remove path =>
    rw [apply]
    cases hr : h.files.remove path with
    | error e => exact .refl _ _
    | ok files => exact remove_off he hr

theorem applyAll_agreesOn (hfiles : h.files.AgreesOn K k.files)
    (hes : ∀ e ∈ es, e.keys h.files ⊆ K) :
    (h.applyAll es).files.AgreesOn K (k.applyAll es).files := by
  induction es generalizing h k with
  | nil => exact hfiles
  | cons e es ih =>
    obtain ⟨he, hes⟩ := List.forall_mem_cons.1 hes
    refine ih (apply_agreesOn hfiles he) fun e' he' => ?_
    rw [e'.keys_of_sameDirectories (h.apply_sameDirectories e)]
    exact hes e' he'

theorem applyAll_off (hes : ∀ e ∈ es, e.keys h.files ⊆ K) :
    h.files.AgreesOn Kᶜ (h.applyAll es).files := by
  induction es generalizing h with
  | nil => exact .refl _ _
  | cons e es ih =>
    obtain ⟨he, hes⟩ := List.forall_mem_cons.1 hes
    refine (apply_off he).trans (ih fun e' he' => ?_)
    rw [e'.keys_of_sameDirectories (h.apply_sameDirectories e)]
    exact hes e' he'

end Host

namespace CdiRoot

variable {r : CdiRoot} {t : FileTree} {name other : String}

def specKeys (r : CdiRoot) (t : FileTree) (name : String) : Set String :=
  t.keysAt (r.specPath name ++ ".tmp") ∪ t.keysAt (r.specPath name)

theorem keys_writeEffects {edits : ContainerEdits} :
    ∀ e ∈ r.writeEffects name edits, e.keys t ⊆ r.specKeys t name := by
  refine List.forall_mem_cons.2 ⟨Set.subset_union_left, List.forall_mem_singleton.2 subset_rfl⟩

theorem keys_removalEffects {h : Host} :
    ∀ e ∈ h.removalEffects r name, e.keys t ⊆ r.specKeys t name := by
  unfold Host.removalEffects
  split
  · exact List.forall_mem_nil _
  · exact List.forall_mem_singleton.2 Set.subset_union_right

theorem IsFlat.apart_besides (h : r.IsFlat t name) (h' : r.IsFlat t other) (hne : name ≠ other) :
    t.Apart (r.specPath name ++ ".tmp") (r.specPath other ++ ".tmp") := by
  intro p q hp hq
  have hname := h ".tmp" p (by decide) hp
  have hother := h' ".tmp" q (by decide) hq
  have hlong : ∀ name, 2 < (specTail name ++ ".tmp").length := by
    intro name
    rw [String.length_append]
    exact Nat.lt_of_lt_of_le (specTail_long name) (Nat.le_add_right _ _)
  rw [specPath_eq, String.append_assoc] at hp hq
  refine FileTree.apart_append (FileTree.slash_free_append (specTail_free hname) (by decide))
    (FileTree.slash_free_append (specTail_free hother) (by decide)) (hlong name) (hlong other) ?_ p q hp hq
  intro heq
  have hlist := congrArg String.toList heq
  rw [String.toList_append, String.toList_append, List.append_cancel_right_eq] at hlist
  exact hne (specTail_inj (String.toList_inj.1 hlist))

theorem IsFlat.disjoint_specKeys (h : r.IsFlat t name) (h' : r.IsFlat t other) (hne : name ≠ other) :
    Disjoint (r.specKeys t name) (r.specKeys t other) := by
  refine Set.disjoint_union_left.2 ⟨Set.disjoint_union_right.2 ⟨?_, ?_⟩,
    Set.disjoint_union_right.2 ⟨?_, ?_⟩⟩
  · exact (h.apart_besides h' hne).disjoint_keysAt
  · exact (h'.apart_beside h).disjoint_keysAt.symm
  · exact (h.apart_beside h').disjoint_keysAt
  · exact (h.apart h' hne).disjoint_keysAt

end CdiRoot

end SliceAgent
