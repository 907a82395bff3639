import Mathlib.Tactic.SplitIfs
import SliceAgent.FileTree
import SliceAgent.Proofs.Dict
import SliceAgent.Proofs.TextPieces

/-! Where paths lead in a tree of files, and what a change at one place leaves as it is at the others. -/
namespace SliceAgent

namespace FileTree

variable {t t' : FileTree} {here place q : Place} {name path : String} {ns rest : List String}

section Walks

def Enters (t : FileTree) (here : Place) (name : String) (next : Place) : Prop :=
  if name = "." then next = here
  else if name = ".." then next = here.tail
  else name.utf8ByteSize ≤ maxNameBytes ∧ t.node? (name :: here) = some .directory ∧ next = name :: here

theorem walk_cons (hrest : rest ≠ []) : t.walk here (name :: rest) = .ok place ↔
    ∃ next, t.Enters here name next ∧ t.walk next rest = .ok place := by
  have hempty : rest.isEmpty = false := by simpa using hrest
  unfold Enters
  rw [walk]
  split
  · simp
  · split
    · simp
    · by_cases hsize : maxNameBytes < name.utf8ByteSize
      · simp [hsize, Nat.not_le.2 hsize]
      · rw [if_neg hsize, hempty]
        cases hnode : t.node? (name :: here) with
        | none => simp
        | some node =>
          cases node with
          | file content => simp
          | directory => simp [Nat.not_lt.1 hsize]

/-- A name that leads on from where it is met. -/
def IsProper (name : String) : Prop := name ≠ "." ∧ name ≠ ".."

theorem walk_last (hname : IsProper name) (h : t.walk here [name] = .ok place) :
    place = name :: here := by
  rw [walk, if_neg hname.1, if_neg hname.2] at h
  split at h
  · cases h
  · cases h
    rfl

theorem walk_snoc (hname : IsProper name) (h : t.walk here (ns ++ [name]) = .ok place) :
    ∃ outer, place = name :: outer := by
  induction ns generalizing here with
  | nil => exact ⟨here, walk_last hname h⟩
  | cons n ns ih =>
    obtain ⟨next, _, hnext⟩ := (walk_cons (by simp)).1 h
    exact ih hnext

theorem walk_through {name : String} (hname : IsProper name) (hrest : rest ≠ [])
    (h : t.walk here (ns ++ name :: rest) = .ok place) :
    ∃ outer, t.walk here (ns ++ [name]) = .ok (name :: outer) ∧
      t.node? (name :: outer) = some .directory := by
  induction ns generalizing here with
  | nil =>
    obtain ⟨next, henters, _⟩ := (walk_cons hrest).1 h
    rw [Enters, if_neg hname.1, if_neg hname.2] at henters
    obtain ⟨hsize, hnode, _⟩ := henters
    refine ⟨here, ?_, hnode⟩
    rw [List.nil_append, walk, if_neg hname.1, if_neg hname.2, if_neg (Nat.not_lt.2 hsize)]
    rfl
  | cons n ns ih =>
    obtain ⟨next, henters, hnext⟩ := (walk_cons (by simp)).1 h
    obtain ⟨outer, hwalk, hnode⟩ := ih hnext
    exact ⟨outer, (walk_cons (by simp)).2 ⟨next, henters, hwalk⟩, hnode⟩

theorem Enters.mono {next : Place} (h : t.Enters here name next)
    (hdirs : ∀ q, t.node? q = some .directory → t'.node? q = some .directory) :
    t'.Enters here name next := by
  unfold Enters at *
  split_ifs at * with hstay hleave
  · exact h
  · exact h
  · exact ⟨h.1, hdirs _ h.2.1, h.2.2⟩

theorem walk_mono (hdirs : ∀ q, t.node? q = some .directory → t'.node? q = some .directory)
    (h : t.walk here ns = .ok place) : t'.walk here ns = .ok place := by
  induction ns generalizing here with
  | nil => exact h
  | cons n ns ih =>
    by_cases hns : ns = []
    · subst hns
      rw [walk] at h ⊢
      exact h
    · obtain ⟨next, henters, hnext⟩ := (walk_cons hns).1 h
      exact (walk_cons hns).2 ⟨next, henters.mono hdirs, ih hnext⟩

end Walks

section Names

def pathNames (cs : List Char) : List String :=
  ((Text.split (· == '/') cs).filter fun n => !n.isEmpty).map String.ofList

theorem locate_ok_iff : t.locate path = .ok place ↔ '\x00' ∉ path.toList ∧
    path.utf8ByteSize < pathLimit ∧ t.walk [] (pathNames path.toList) = .ok place := by
  unfold locate names
  by_cases hnul : '\x00' ∈ path.toList
  · simp [hnul]
  · by_cases hlong : pathLimit ≤ path.utf8ByteSize
    · simp [hnul, hlong, Nat.not_lt.2 hlong]
    · simp [hnul, hlong, Nat.not_le.1 hlong, pathNames]

theorem pathNames_slash (xs ys : List Char) :
    pathNames (xs ++ '/' :: ys) = pathNames xs ++ pathNames ys := by
  rw [pathNames, Text.split_append_separator (by rfl), List.filter_append, List.map_append]
  rfl

theorem pathNames_append (lead : String) : ∃ init, ∃ last : String, '/' ∉ last.toList ∧
    ∀ tail : String, tail ≠ "" → '/' ∉ tail.toList →
      pathNames (lead ++ tail).toList = init ++ [last ++ tail] := by
  obtain ⟨init, last, hlast, hsplit⟩ := Text.split_append (· == '/') lead.toList
  refine ⟨(init.filter fun n => !n.isEmpty).map String.ofList, String.ofList last, ?_, ?_⟩
  · intro hmem
    rw [String.toList_ofList] at hmem
    exact absurd (hlast _ hmem) (by decide)
  · intro tail hne hfree
    have hpieces := hsplit tail.toList fun c hc => by
      rw [beq_eq_false_iff_ne]
      rintro rfl
      exact hfree hc
    have hkeep : (last ++ tail.toList).isEmpty = false := by
      simpa using fun _ => hne
    rw [pathNames, String.toList_append, hpieces]
    simp [hkeep]

theorem isProper_of_length (h : 2 < name.length) : IsProper name := by
  constructor
  · rintro rfl
    exact absurd h (by decide)
  · rintro rfl
    exact absurd h (by decide)

theorem locate_append (lead : String) : ∃ last : String, '/' ∉ last.toList ∧
    ∀ (t : FileTree) (tail : String) (place : Place), '/' ∉ tail.toList → 2 < tail.length →
      t.locate (lead ++ tail) = .ok place → ∃ outer, place = (last ++ tail) :: outer := by
  obtain ⟨init, last, hlast, hnames⟩ := pathNames_append lead
  refine ⟨last, hlast, fun t tail place hfree hlong h => ?_⟩
  have htail : tail ≠ "" := by
    rintro rfl
    exact absurd hlong (by decide)
  have hwalk := (locate_ok_iff.1 h).2.2
  rw [hnames tail htail hfree] at hwalk
  refine walk_snoc (isProper_of_length ?_) hwalk
  rw [String.length_append]
  omega

theorem locate_slash {lead tail rest : String} {place : Place} (hfree : '/' ∉ tail.toList)
    (hlong : 2 < tail.length) (hrest : pathNames rest.toList ≠ [])
    (h : t.locate (lead ++ tail ++ "/" ++ rest) = .ok place) :
    ∃ q, t.locate (lead ++ tail) = .ok q ∧ t.node? q = some .directory := by
  obtain ⟨init, last, hlast, hnames⟩ := pathNames_append lead
  have htail : tail ≠ "" := by
    rintro rfl
    exact absurd hlong (by decide)
  obtain ⟨hnul, hsize, hwalk⟩ := locate_ok_iff.1 h
  have hpath : (lead ++ tail ++ "/" ++ rest).toList = (lead ++ tail).toList ++ '/' :: rest.toList := by
    simp
  rw [hpath, pathNames_slash, hnames tail htail hfree, List.append_assoc, List.singleton_append] at hwalk
  have hproper : IsProper (last ++ tail) := by
    refine isProper_of_length ?_
    rw [String.length_append]
    omega
  obtain ⟨outer, hwalk, hnode⟩ := walk_through hproper hrest hwalk
  refine ⟨_, locate_ok_iff.2 ⟨?_, ?_, ?_⟩, hnode⟩
  · intro hmem
    rw [hpath] at hnul
    exact hnul (List.mem_append_left _ hmem)
  · simp only [String.utf8ByteSize_append] at hsize ⊢
    omega
  · rw [hnames tail htail hfree]
    exact hwalk

theorem last_eq_of_append_eq {xs ys as bs : List Char} (ha : '/' ∉ as) (hb : '/' ∉ bs)
    (h : xs ++ '/' :: as = ys ++ '/' :: bs) : as = bs := by
  have htake : ∀ {zs cs : List Char}, '/' ∉ cs →
      (zs ++ '/' :: cs).reverse.takeWhile (· != '/') = cs.reverse := by
    intro zs cs hc
    have hall : ∀ c ∈ cs.reverse, (c != '/') = true := by
      intro c hmem
      rw [bne_iff_ne]
      rintro rfl
      exact hc (List.mem_reverse.1 hmem)
    rw [List.reverse_append, List.reverse_cons, List.append_assoc, List.takeWhile_append_of_pos hall]
    simp
  have hrev := congrArg (fun l => l.reverse.takeWhile (· != '/')) h
  simp only [htake ha, htake hb] at hrev
  exact List.reverse_inj.1 hrev

theorem name_eq_of_key_eq {name' : String} {outer outer' : Place} (hn : '/' ∉ name.toList)
    (hn' : '/' ∉ name'.toList) (h : Place.key (name :: outer) = Place.key (name' :: outer')) :
    name = name' := by
  have hlist := congrArg String.toList h
  simp only [Place.key, String.toList_append, List.append_assoc] at hlist
  exact String.toList_inj.1 (last_eq_of_append_eq hn hn' hlist)

end Names

section Changes

variable {content c : ByteArray} {source target other : String} {node : FileNode}

theorem key_cons_ne (name : String) (outer : Place) : Place.key (name :: outer) ≠ Place.key [] := by
  intro h
  simpa [Place.key] using congrArg String.toList h

theorem node?_put (hplace : place ≠ []) :
    (t.put place node).node? q = if q.key = place.key then some node else t.node? q := by
  cases place with
  | nil => exact absurd rfl hplace
  | cons name outer =>
    cases q with
    | nil =>
      rw [if_neg (key_cons_ne name outer).symm]
      rfl
    | cons name' outer' => exact Dict.find?_insert ..

theorem node?_erase (hplace : place ≠ []) :
    (t.erase place).node? q = if q.key = place.key then none else t.node? q := by
  cases place with
  | nil => exact absurd rfl hplace
  | cons name outer =>
    cases q with
    | nil =>
      rw [if_neg (key_cons_ne name outer).symm]
      rfl
    | cons name' outer' => exact Dict.find?_erase ..

theorem ne_nil_of_node (h : t.node? place ≠ some .directory) : place ≠ [] := by
  rintro rfl
  exact h rfl

theorem node?_of_key (hplace : place ≠ []) (h : q.key = place.key) : t.node? q = t.node? place := by
  cases place with
  | nil => exact absurd rfl hplace
  | cons name outer =>
    cases q with
    | nil => exact absurd h.symm (key_cons_ne name outer)
    | cons name' outer' => exact congrArg t.nodes.find? h

/-- Two trees with their directories at the same places. Paths lead to the same places in both. -/
def SameDirectories (t t' : FileTree) : Prop :=
  ∀ q, t'.node? q = some .directory ↔ t.node? q = some .directory

theorem SameDirectories.refl (t : FileTree) : t.SameDirectories t := fun _ => Iff.rfl

theorem SameDirectories.symm (h : t.SameDirectories t') : t'.SameDirectories t := fun q => (h q).symm

theorem SameDirectories.trans {t'' : FileTree} (h : t.SameDirectories t') (h' : t'.SameDirectories t'') :
    t.SameDirectories t'' := fun q => (h' q).trans (h q)

theorem SameDirectories.locate (h : t.SameDirectories t') :
    t'.locate path = .ok place ↔ t.locate path = .ok place := by
  simp only [locate_ok_iff]
  refine and_congr_right fun _ => and_congr_right fun _ => ⟨?_, ?_⟩
  · exact walk_mono fun q => (h q).1
  · exact walk_mono fun q => (h q).2

theorem sameDirectories_put (h : t.node? place ≠ some .directory) :
    t.SameDirectories (t.put place (.file content)) := by
  intro q
  have hplace := ne_nil_of_node h
  rw [node?_put hplace]
  split
  · rename_i hkey
    rw [node?_of_key hplace hkey]
    simp [h]
  · rfl

theorem sameDirectories_erase (h : t.node? place ≠ some .directory) :
    t.SameDirectories (t.erase place) := by
  intro q
  have hplace := ne_nil_of_node h
  rw [node?_erase hplace]
  split
  · rename_i hkey
    rw [node?_of_key hplace hkey]
    simp [h]
  · rfl

theorem read_ok_iff : t.read path = .ok content ↔
    ∃ place, t.locate path = .ok place ∧ t.node? place = some (.file content) := by
  unfold read
  cases t.locate path with
  | error e => simp
  | ok place =>
    simp only [Except.ok.injEq, exists_eq_left']
    cases t.node? place with
    | none => simp
    | some node => cases node <;> simp

theorem write_ok_iff : t.write path content = .ok t' ↔ ∃ place, t.locate path = .ok place ∧
    t.node? place ≠ some .directory ∧ t' = t.put place (.file content) := by
  unfold write
  cases t.locate path with
  | error e => simp
  | ok place =>
    simp only [Except.ok.injEq, exists_eq_left']
    cases t.node? place with
    | none => simp [eq_comm]
    | some node => cases node <;> simp [eq_comm]

theorem remove_ok_iff : t.remove path = .ok t' ↔ ∃ place content, t.locate path = .ok place ∧
    t.node? place = some (.file content) ∧ t' = t.erase place := by
  unfold remove
  cases t.locate path with
  | error e => simp
  | ok place =>
    simp only [Except.ok.injEq, exists_and_left, exists_eq_left']
    cases t.node? place with
    | none => simp
    | some node => cases node <;> simp [eq_comm]

theorem rename_ok_iff : t.rename source target = .ok t' ↔ ∃ p q content,
    t.locate source = .ok p ∧ t.locate target = .ok q ∧ t.node? p = some (.file content) ∧
    t.node? q ≠ some .directory ∧ t' = (t.erase p).put q (.file content) := by
  unfold rename
  cases t.locate source with
  | error e => simp
  | ok p =>
    cases t.locate target with
    | error e => simp
    | ok q =>
      simp only [Except.ok.injEq, exists_and_left, exists_eq_left']
      cases t.node? p with
      | none => simp
      | some node =>
        cases node with
        | directory => simp
        | file content => by_cases hq : t.node? q = some .directory <;> simp [hq, eq_comm]

def Apart (t : FileTree) (path other : String) : Prop :=
  ∀ p q, t.locate path = .ok p → t.locate other = .ok q → p.key ≠ q.key

theorem slash_free_append {last tail : String} (hlast : '/' ∉ last.toList) (htail : '/' ∉ tail.toList) :
    '/' ∉ (last ++ tail).toList := by
  rw [String.toList_append, List.mem_append, not_or]
  exact ⟨hlast, htail⟩

theorem apart_append {lead tail tail' : String} (hfree : '/' ∉ tail.toList)
    (hfree' : '/' ∉ tail'.toList) (hlong : 2 < tail.length) (hlong' : 2 < tail'.length)
    (hne : tail ≠ tail') : t.Apart (lead ++ tail) (lead ++ tail') := by
  obtain ⟨last, hlast, hlead⟩ := locate_append lead
  intro p q hp hq hkey
  obtain ⟨outer, rfl⟩ := hlead t tail p hfree hlong hp
  obtain ⟨outer', rfl⟩ := hlead t tail' q hfree' hlong' hq
  have heq := congrArg String.toList
    (name_eq_of_key_eq (slash_free_append hlast hfree) (slash_free_append hlast hfree') hkey)
  rw [String.toList_append, String.toList_append, List.append_cancel_left_eq] at heq
  exact hne (String.toList_inj.1 heq)

theorem apart_of_getLast {lead lead' tail tail' : String} (hfree : '/' ∉ tail.toList)
    (hfree' : '/' ∉ tail'.toList) (hlong : 2 < tail.length) (hlong' : 2 < tail'.length)
    (hne : tail.toList.getLast? ≠ tail'.toList.getLast?) : t.Apart (lead ++ tail) (lead' ++ tail') := by
  obtain ⟨last, hlast, hlead⟩ := locate_append lead
  obtain ⟨last', hlast', hlead'⟩ := locate_append lead'
  have hend : ∀ {front s : String}, 2 < s.length →
      (front ++ s).toList.getLast? = s.toList.getLast? := by
    intro front s hs
    have hne : s.toList ≠ [] := by
      intro hnil
      rw [← String.length_toList, hnil] at hs
      exact absurd hs (by decide)
    rw [String.toList_append, List.getLast?_append, List.getLast?_eq_some_getLast hne]
    rfl
  intro p q hp hq hkey
  obtain ⟨outer, rfl⟩ := hlead t tail p hfree hlong hp
  obtain ⟨outer', rfl⟩ := hlead' t tail' q hfree' hlong' hq
  have heq := congrArg (fun s => s.toList.getLast?)
    (name_eq_of_key_eq (slash_free_append hlast hfree) (slash_free_append hlast' hfree') hkey)
  simp only [hend hlong, hend hlong'] at heq
  exact hne heq

theorem write_sameDirectories (h : t.write path content = .ok t') : t.SameDirectories t' := by
  obtain ⟨place, _, hnode, rfl⟩ := write_ok_iff.1 h
  exact sameDirectories_put hnode

theorem remove_sameDirectories (h : t.remove path = .ok t') : t.SameDirectories t' := by
  obtain ⟨place, content, _, hnode, rfl⟩ := remove_ok_iff.1 h
  refine sameDirectories_erase ?_
  simp [hnode]

theorem rename_sameDirectories (h : t.rename source target = .ok t') : t.SameDirectories t' := by
  obtain ⟨p, q, content, _, _, hp, hq, rfl⟩ := rename_ok_iff.1 h
  have herase : t.SameDirectories (t.erase p) := sameDirectories_erase (by simp [hp])
  exact herase.trans (sameDirectories_put fun h => hq ((herase q).1 h))

theorem read_write (h : t.write path content = .ok t') : t'.read path = .ok content := by
  obtain ⟨place, hplace, hnode, rfl⟩ := write_ok_iff.1 h
  refine read_ok_iff.2 ⟨place, (sameDirectories_put hnode).locate.2 hplace, ?_⟩
  rw [node?_put (ne_nil_of_node hnode), if_pos rfl]

theorem read_write_other (h : t.write path content = .ok t') (hapart : t.Apart other path) :
    t'.read other = .ok c ↔ t.read other = .ok c := by
  obtain ⟨place, hplace, hnode, rfl⟩ := write_ok_iff.1 h
  simp only [read_ok_iff, (sameDirectories_put hnode).locate]
  refine exists_congr fun q => and_congr_right fun hq => ?_
  rw [node?_put (ne_nil_of_node hnode), if_neg (hapart q place hq hplace)]

theorem read_remove (h : t.remove path = .ok t') : t'.read path = .error .missing := by
  obtain ⟨place, content, hplace, hnode, rfl⟩ := remove_ok_iff.1 h
  have hfile : t.node? place ≠ some .directory := by simp [hnode]
  have hplace' := (sameDirectories_erase hfile).locate.2 hplace
  rw [read, hplace']
  simp only [node?_erase (ne_nil_of_node hfile), if_true]

theorem remove_ok_of_read (h : t.read path = .ok content) : ∃ t', t.remove path = .ok t' := by
  obtain ⟨place, hplace, hnode⟩ := read_ok_iff.1 h
  exact ⟨_, remove_ok_iff.2 ⟨place, content, hplace, hnode, rfl⟩⟩

theorem read_of_remove_missing (h : t.remove path = .error .missing) :
    t.read path = .error .missing := by
  unfold remove at h
  unfold read
  cases hplace : t.locate path with
  | error e =>
    rw [hplace] at h
    cases h
    rfl
  | ok place =>
    simp only [hplace] at h ⊢
    cases hnode : t.node? place with
    | none => rfl
    | some node =>
      rw [hnode] at h
      cases node <;> cases h

theorem read_remove_other (h : t.remove path = .ok t') (hapart : t.Apart other path) :
    t'.read other = .ok c ↔ t.read other = .ok c := by
  obtain ⟨place, content, hplace, hnode, rfl⟩ := remove_ok_iff.1 h
  have hfile : t.node? place ≠ some .directory := by simp [hnode]
  simp only [read_ok_iff, (sameDirectories_erase hfile).locate]
  refine exists_congr fun q => and_congr_right fun hq => ?_
  rw [node?_erase (ne_nil_of_node hfile), if_neg (hapart q place hq hplace)]

theorem read_rename (h : t.rename source target = .ok t') (hsource : t.read source = .ok content) :
    t'.read target = .ok content := by
  have hsame := rename_sameDirectories h
  obtain ⟨p, q, content', hp, hq, hnode, hfile, rfl⟩ := rename_ok_iff.1 h
  obtain ⟨p', hp', hcontent⟩ := read_ok_iff.1 hsource
  cases hp.symm.trans hp'
  cases hnode.symm.trans hcontent
  refine read_ok_iff.2 ⟨q, hsame.locate.2 hq, ?_⟩
  rw [node?_put (ne_nil_of_node hfile), if_pos rfl]

theorem read_replace (hok : (t.replace path content).1 = .ok ()) :
    (t.replace path content).2.read path = .ok content := by
  unfold replace at hok ⊢
  simp only at hok ⊢
  cases hw : t.write (path ++ ".tmp") content with
  | error e =>
    rw [hw] at hok
    cases hok
  | ok written =>
    simp only [hw] at hok ⊢
    cases hm : written.rename (path ++ ".tmp") path with
    | error e =>
      rw [hm] at hok
      cases hok
    | ok moved => exact read_rename hm (read_write hw)

theorem replace_ok_iff : (t.replace path content).1 = .ok () ↔ ∃ p q,
    t.locate (path ++ ".tmp") = .ok p ∧ t.node? p ≠ some .directory ∧
      t.locate path = .ok q ∧ t.node? q ≠ some .directory := by
  unfold replace
  simp only
  cases hw : t.write (path ++ ".tmp") content with
  | error e =>
    constructor
    · intro h
      cases h
    · rintro ⟨p, q, hp, hfile, _⟩
      cases hw.symm.trans (write_ok_iff.2 ⟨p, hp, hfile, rfl⟩)
  | ok written =>
    have hsame := write_sameDirectories hw
    obtain ⟨p, hp, hfile, hput⟩ := write_ok_iff.1 hw
    simp only
    cases hm : written.rename (path ++ ".tmp") path with
    | error e =>
      constructor
      · intro h
        cases h
      · rintro ⟨_, q, _, _, hq, hfree⟩
        have hnode : written.node? p = some (.file content) := by
          rw [hput, node?_put (ne_nil_of_node hfile), if_pos rfl]
        cases hm.symm.trans (rename_ok_iff.2 ⟨p, q, content, hsame.locate.2 hp, hsame.locate.2 hq,
          hnode, fun hdir => hfree ((hsame q).1 hdir), rfl⟩)
    | ok moved =>
      obtain ⟨_, q, _, _, hq, _, hfree, _⟩ := rename_ok_iff.1 hm
      refine ⟨fun _ => ?_, fun _ => rfl⟩
      exact ⟨p, q, hp, hfile, hsame.locate.1 hq, fun hdir => hfree ((hsame q).2 hdir)⟩

theorem SameDirectories.replace_ok {content' : ByteArray} (h : t.SameDirectories t')
    (hok : (t.replace path content).1 = .ok ()) : (t'.replace path content').1 = .ok () := by
  obtain ⟨p, q, hp, hfile, hq, hfree⟩ := replace_ok_iff.1 hok
  exact replace_ok_iff.2 ⟨p, q, h.locate.2 hp, fun hdir => hfile ((h p).1 hdir), h.locate.2 hq,
    fun hdir => hfree ((h q).1 hdir)⟩

theorem read_rename_other (h : t.rename source target = .ok t') (hsource : t.Apart other source)
    (htarget : t.Apart other target) : t'.read other = .ok c ↔ t.read other = .ok c := by
  have hsame := rename_sameDirectories h
  obtain ⟨p, q, content, hp, hq, hnode, hfile, rfl⟩ := rename_ok_iff.1 h
  have hfile' : t.node? p ≠ some .directory := by simp [hnode]
  simp only [read_ok_iff, hsame.locate]
  refine exists_congr fun place => and_congr_right fun hplace => ?_
  rw [node?_put (ne_nil_of_node hfile), if_neg (htarget place q hplace hq),
    node?_erase (ne_nil_of_node hfile'), if_neg (hsource place p hplace hp)]

theorem replace_sameDirectories (t : FileTree) (path : String) (content : ByteArray) :
    t.SameDirectories (t.replace path content).2 := by
  unfold replace
  simp only
  cases hw : t.write (path ++ ".tmp") content with
  | error e => exact .refl t
  | ok written =>
    simp only
    cases hm : written.rename (path ++ ".tmp") path with
    | error e => exact write_sameDirectories hw
    | ok moved => exact (write_sameDirectories hw).trans (rename_sameDirectories hm)

theorem read_replace_other (hpath : ∀ t : FileTree, t.Apart other path)
    (hbeside : ∀ t : FileTree, t.Apart other (path ++ ".tmp")) :
    (t.replace path content).2.read other = .ok c ↔ t.read other = .ok c := by
  unfold replace
  simp only
  cases hw : t.write (path ++ ".tmp") content with
  | error e => exact Iff.rfl
  | ok written =>
    have hwritten := read_write_other (c := c) hw (hbeside t)
    simp only
    cases hm : written.rename (path ++ ".tmp") path with
    | error e => exact hwritten
    | ok moved => exact (read_rename_other hm (hbeside written) (hpath written)).trans hwritten

end Changes

section Kept

variable {other : String} {content : ByteArray} {node : FileNode}

def KeepsFile (other : String) (t t' : FileTree) : Prop :=
  ∀ c, t.read other = .ok c → t'.read other = .ok c

theorem KeepsFile.trans {t'' : FileTree} (h : t.KeepsFile other t') (h' : t'.KeepsFile other t'') :
    t.KeepsFile other t'' := fun c hc => h' c (h c hc)

theorem replace_keepsFile (hpath : ∀ t : FileTree, t.Apart other path)
    (hbeside : ∀ t : FileTree, t.Apart other (path ++ ".tmp")) :
    t.KeepsFile other (t.replace path content).2 :=
  fun _ hc => (read_replace_other hpath hbeside).2 hc

/-- Whether everything stays where it is, though there may be more. -/
def Grows (t t' : FileTree) : Prop := ∀ q node, t.node? q = some node → t'.node? q = some node

theorem Grows.keepsFile (h : t.Grows t') : t.KeepsFile other t' := by
  intro c hc
  obtain ⟨place, hplace, hnode⟩ := read_ok_iff.1 hc
  obtain ⟨hnul, hsize, hwalk⟩ := locate_ok_iff.1 hplace
  have hplace' := locate_ok_iff.2 ⟨hnul, hsize, walk_mono (fun q => h q _) hwalk⟩
  exact read_ok_iff.2 ⟨place, hplace', h _ _ hnode⟩

theorem grows_put (h : t.node? place = none) : t.Grows (t.put place node) := by
  intro q old hq
  have hplace : place ≠ [] := ne_nil_of_node (t := t) (by simp [h])
  rw [node?_put hplace, if_neg]
  · exact hq
  · intro hkey
    rw [node?_of_key hplace hkey, h] at hq
    cases hq

theorem makeDirectories_grows (h : t.makeDirectories here ns = .ok t') : t.Grows t' := by
  induction ns generalizing t here with
  | nil =>
    cases h
    exact fun _ _ hq => hq
  | cons name rest ih =>
    rw [makeDirectories] at h
    split at h
    · exact ih h
    · split at h
      · exact ih h
      · split at h
        · cases h
        · cases hnode : t.node? (name :: here) with
          | none =>
            rw [hnode] at h
            exact fun q old hq => ih h q old (grows_put hnode q old hq)
          | some node =>
            rw [hnode] at h
            cases node with
            | directory => exact ih h
            | file content => cases h

theorem createDirectory_grows (h : t.createDirectory path = .ok t') : t.Grows t' := by
  unfold createDirectory at h
  split at h
  · cases h
  · exact makeDirectories_grows h

end Kept

end FileTree

end SliceAgent
