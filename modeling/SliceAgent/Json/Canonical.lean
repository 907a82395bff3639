import SliceAgent.Json.Basic

/-!
Canonical values. Bringing a value into canonical form twice is no different from doing it once
(`Json.canonical_canonical`), so canonical values can be held as a type of their own.
-/
namespace SliceAgent

theorem putEntry_append {β : Type u} {k : String} {v : β} {es : List (String × β)}
    (h : ∀ e ∈ es, e.1 < k) : putEntry k v es = es ++ [(k, v)] := by
  induction es with
  | nil => rfl
  | cons e es ih =>
    have he : e.1 < k := h e List.mem_cons_self
    have h1 : ¬ k < e.1 := String.lt_asymm he
    have h2 : k ≠ e.1 := fun hk => String.lt_irrefl _ (hk ▸ he)
    rw [putEntry, if_neg h1, if_neg h2, ih fun e he => h e (List.mem_cons_of_mem _ he),
      List.cons_append]

namespace Json

def SortedMembers (ms : List (String × Json)) : Prop :=
  ms.Pairwise (fun a b => a.1 < b.1) ∧ ∀ m ∈ ms, m.2.canonical = m.2

theorem canonicalMembers_of_sorted {acc ms : List (String × Json)} (h : SortedMembers (acc ++ ms)) :
    canonicalMembers acc ms = acc ++ ms := by
  induction ms generalizing acc with
  | nil => rw [canonicalMembers, List.append_nil]
  | cons m ms ih =>
    obtain ⟨k, j⟩ := m
    have hj : j.canonical = j := h.2 (k, j) (by simp)
    have hk : ∀ e ∈ acc, e.1 < k := fun e he =>
      (List.pairwise_append.1 h.1).2.2 e he (k, j) List.mem_cons_self
    rw [canonicalMembers, hj, putEntry_append hk, ih (by simpa using h), List.append_assoc]
    rfl

theorem sortedMembers_putEntry {k : String} {j : Json} {ms : List (String × Json)}
    (hj : j.canonical = j) (h : SortedMembers ms) : SortedMembers (putEntry k j ms) :=
  ⟨pairwise_putEntry k j h.1, fun m hm => by
    rcases mem_putEntry hm with rfl | hm
    · exact hj
    · exact h.2 m hm⟩

mutual

theorem canonical_canonical : ∀ j : Json, j.canonical.canonical = j.canonical
  | null | bool _ | int _ | float _ | str _ => rfl
  | arr items => congrArg arr (canonicalItems_canonicalItems items)
  | obj members => by
    have h := @sortedMembers_canonicalMembers [] ⟨.nil, by simp⟩ members
    exact congrArg obj (@canonicalMembers_of_sorted [] _ h)

theorem canonicalItems_canonicalItems :
    ∀ js : List Json, canonicalItems (canonicalItems js) = canonicalItems js
  | [] => rfl
  | j :: js => by
    rw [canonicalItems, canonicalItems, canonical_canonical j, canonicalItems_canonicalItems js]

theorem sortedMembers_canonicalMembers {acc : List (String × Json)} (h : SortedMembers acc) :
    ∀ ms : List (String × Json), SortedMembers (canonicalMembers acc ms)
  | [] => h
  | (_, j) :: ms => by
    rw [canonicalMembers]
    exact sortedMembers_canonicalMembers (sortedMembers_putEntry (canonical_canonical j) h) ms

end

end Json

/-- A JSON value whose objects list their keys in order. -/
structure CanonicalJson where
  json : Json
  canonical : json.canonical = json

namespace CanonicalJson

def ofJson (j : Json) : CanonicalJson := ⟨j.canonical, j.canonical_canonical⟩

def null : CanonicalJson := ⟨.null, rfl⟩

instance : Inhabited CanonicalJson := ⟨null⟩

@[simp] theorem ofJson_json (c : CanonicalJson) : ofJson c.json = c := by
  cases c with
  | mk j h => simp [ofJson, h]

end CanonicalJson

end SliceAgent
