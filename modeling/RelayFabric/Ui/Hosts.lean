/- source: relayfabric-ui/src/main.rs (host_of, host_allowed)
   digest: The Host header against the allowed hosts, and the headers that pass beside them. -/

import RelayFabric.Engine.Egress
import RelayFabric.Ui.WebAuthn

namespace RelayFabric.Ui

open List

def rsplitOnce (sep : Char) (text : List Char) : Option (List Char × List Char) :=
  (splitOnce sep text.reverse).map (fun (right, left) => (left.reverse, right.reverse))

def isPort (port : List Char) : Bool := !port.isEmpty && port.all Char.isDigit

def withoutPort (value : List Char) : List Char :=
  match rsplitOnce ':' value with
  | some (host, port) => if isPort port then host else value
  | none => value

/-- A value that opens with a bracket is cut after its first `]`, any other one before its port. -/
def hostOf (value : List Char) : List Char :=
  if value.head? = some '[' then
    match splitOnce ']' value with
    | some (front, _) => front ++ [']']
    | none => withoutPort value
  else withoutPort value

def isVisible (c : Char) : Bool := c == '\t' || (32 ≤ c.toNat && c.toNat < 127)

def hostAllowed (host : Option String) (allowed : List String) : Bool :=
  host.any (fun h => h.toList.all isVisible &&
    allowed.any (fun a => a.toList == toAsciiLowercase (hostOf h.toList)))

def IsEnd (tail : List Char) : Prop := tail = [] ∨ ∃ port, isPort port = true ∧ tail = ':' :: port

section

variable {text host port tail : List Char}

theorem rsplitOnce_eq_some_iff {sep : Char} {left right : List Char} :
    rsplitOnce sep text = some (left, right) ↔ text = left ++ sep :: right ∧ sep ∉ right := by
  constructor
  · intro split
    obtain ⟨⟨right', left'⟩, found, same⟩ := Option.map_eq_some_iff.mp split
    cases same
    obtain ⟨whole, absent⟩ := splitOnce_eq_some found
    refine ⟨?_, fun member => absent (mem_reverse.mp member)⟩
    rw [← text.reverse_reverse, whole]
    simp
  · rintro ⟨rfl, absent⟩
    have split : splitOnce sep (right.reverse ++ sep :: left.reverse) =
        some (right.reverse, left.reverse) :=
      splitOnce_append (mt mem_reverse.mp absent)
    simp [rsplitOnce, split]

theorem withoutPort_append (clean : ':' ∉ host) (ends : IsEnd tail) :
    withoutPort (host ++ tail) = host := by
  unfold withoutPort
  rcases ends with rfl | ⟨port, digits, rfl⟩
  · cases split : rsplitOnce ':' (host ++ []) with
    | none => exact append_nil host
    | some pair =>
      have whole := (rsplitOnce_eq_some_iff.mp split).1
      rw [append_nil] at whole
      exact absurd (whole ▸ by simp) clean
  · have absent : ':' ∉ port := by
      intro member
      cases all_eq_true.mp (Bool.and_eq_true_iff.mp digits).2 _ member
    rw [rsplitOnce_eq_some_iff.mpr ⟨rfl, absent⟩]
    exact if_pos digits

theorem withoutPort_cut (text : List Char) :
    ∃ tail, text = withoutPort text ++ tail ∧ IsEnd tail := by
  unfold withoutPort
  split
  · rename_i host port split
    split
    · rename_i digits
      exact ⟨_, (rsplitOnce_eq_some_iff.mp split).1, Or.inr ⟨port, digits, rfl⟩⟩
    · exact ⟨[], (append_nil text).symm, Or.inl rfl⟩
  · exact ⟨[], (append_nil text).symm, Or.inl rfl⟩

theorem hostOf_cut (text : List Char) :
    ∃ tail, text = hostOf text ++ tail ∧ (IsEnd tail ∨ (hostOf text).head? = some '[') := by
  have plain : ∃ tail, text = withoutPort text ++ tail ∧
      (IsEnd tail ∨ (withoutPort text).head? = some '[') := by
    obtain ⟨tail, whole, ends⟩ := withoutPort_cut text
    exact ⟨tail, whole, Or.inl ends⟩
  unfold hostOf
  split
  · rename_i opens
    split
    · rename_i front tail split
      obtain ⟨rfl, -⟩ := splitOnce_eq_some split
      refine ⟨tail, by simp, Or.inr ?_⟩
      cases front with
      | nil => cases opens
      | cons => exact opens
    · exact plain
  · exact plain

def HostForm (host : List Char) : Prop :=
  host.head? ≠ some '[' ∧ ':' ∉ host ∨
    ∃ front, host = front ++ [']'] ∧ ']' ∉ front ∧ host.head? = some '['

theorem hostOf_append (form : HostForm host) (ends : IsEnd tail ∨ host.head? = some '[') :
    hostOf (host ++ tail) = host := by
  rcases form with ⟨opens, clean⟩ | ⟨front, rfl, first, opens⟩
  · have behind := ends.resolve_right opens
    have other : (host ++ tail).head? ≠ some '[' := by
      cases host with
      | nil => rcases behind with rfl | ⟨port, _, rfl⟩ <;> simp
      | cons => exact opens
    rw [hostOf, if_neg other, withoutPort_append clean behind]
  · have head : (front ++ ']' :: tail).head? = some '[' := by
      cases front with
      | nil => cases opens
      | cons => exact opens
    rw [append_assoc, singleton_append, hostOf, if_pos head, splitOnce_append first]

theorem HostForm.of_lowercase (form : HostForm (toAsciiLowercase host)) : HostForm host := by
  have opens : (toAsciiLowercase host).head? = some '[' ↔ host.head? = some '[' := by
    simp only [toAsciiLowercase, List.head?_map, Option.map_eq_some_iff]
    exact ⟨fun ⟨c, first, same⟩ => eq_of_toLower_eq same rfl ▸ first, fun first => ⟨_, first, rfl⟩⟩
  rcases form with ⟨other, clean⟩ | ⟨front, whole, first, bracket⟩
  · exact Or.inl ⟨mt opens.mpr other, fun member => clean (mem_map.mpr ⟨_, member, rfl⟩)⟩
  · obtain ⟨front', last, rfl, rfl, single⟩ := map_eq_append_iff.mp whole
    obtain ⟨c, rfl, same⟩ := map_eq_singleton_iff.mp single
    obtain rfl := eq_of_toLower_eq same rfl
    exact Or.inr ⟨front', rfl, fun member => first (mem_map.mpr ⟨_, member, rfl⟩), opens.mp bracket⟩

theorem isVisible_of_toLower {c : Char} (visible : isVisible c.toLower = true) :
    isVisible c = true := by
  unfold Char.toLower at visible
  split at visible
  · rename_i upper
    have low : (65 : UInt32) ≤ c.val := upper.1
    have high : c.val ≤ 90 := upper.2
    rw [UInt32.le_iff_toNat_le] at low high
    simp [isVisible] at low high ⊢
    omega
  · exact visible

end

/-- Hosts as they may stand in the list: visible, and each a name, an address or a literal. -/
def Hosts (allowed : List String) : Prop :=
  ∀ a ∈ allowed, HostForm a.toList ∧ ∀ c ∈ a.toList, isVisible c = true

def Listed (allowed : List String) (host : List Char) : Prop :=
  ∃ a ∈ allowed, a.toList = toAsciiLowercase host

/-- Up to case the header is an allowed host, by itself or with a port. -/
def NamesHost (allowed : List String) (header : String) : Prop :=
  ∃ host tail, header.toList = host ++ tail ∧ Listed allowed host ∧ IsEnd tail

/-- A visible header that goes on behind an allowed literal with something other than a port. -/
def TrailsLiteral (allowed : List String) (header : String) : Prop :=
  (∀ c ∈ header.toList, isVisible c = true) ∧
    ∃ host tail, header.toList = host ++ tail ∧ Listed allowed host ∧ host.head? = some '[' ∧
    ¬IsEnd tail

section

variable {allowed : List String} {header : String}

theorem visible_of_namesHost (hosts : Hosts allowed) (named : NamesHost allowed header) :
    ∀ c ∈ header.toList, isVisible c = true := by
  intro c member
  obtain ⟨host, tail, whole, ⟨a, listed, same⟩, ends⟩ := named
  rw [whole] at member
  rcases mem_append.mp member with inHost | inTail
  · exact isVisible_of_toLower ((hosts a listed).2 _ (same ▸ mem_map_of_mem inHost))
  · rcases ends with rfl | ⟨port, digits, rfl⟩
    · cases inTail
    · rcases mem_cons.mp inTail with rfl | digit
      · rfl
      · have digit := all_eq_true.mp (Bool.and_eq_true_iff.mp digits).2 _ digit
        simp only [Char.isDigit, UInt32.le_iff_toNat_le, ge_iff_le, Bool.and_eq_true,
          decide_eq_true_eq] at digit
        simp [isVisible] at digit ⊢
        omega

theorem hostOf_of_listed (hosts : Hosts allowed) {host tail : List Char}
    (listed : Listed allowed host) (ends : IsEnd tail ∨ host.head? = some '[') :
    hostOf (host ++ tail) = host := by
  obtain ⟨a, member, same⟩ := listed
  exact hostOf_append (HostForm.of_lowercase (same ▸ (hosts a member).1)) ends

theorem hostAllowed_iff (hosts : Hosts allowed) :
    hostAllowed (some header) allowed = true ↔ NamesHost allowed header ∨
      TrailsLiteral allowed header := by
  have passes : hostAllowed (some header) allowed = true ↔
      (∀ c ∈ header.toList, isVisible c = true) ∧ Listed allowed (hostOf header.toList) := by
    simp [hostAllowed, Listed]
  rw [passes]
  constructor
  · rintro ⟨visible, listed⟩
    obtain ⟨tail, whole, cut⟩ := hostOf_cut header.toList
    by_cases ends : IsEnd tail
    · exact Or.inl ⟨_, tail, whole, listed, ends⟩
    · exact Or.inr ⟨visible, _, tail, whole, listed, cut.resolve_left ends, ends⟩
  · rintro (named | ⟨visible, host, tail, whole, listed, opens, _⟩)
    · refine ⟨visible_of_namesHost hosts named, ?_⟩
      obtain ⟨host, tail, whole, listed, ends⟩ := named
      rwa [whole, hostOf_of_listed hosts listed (Or.inl ends)]
    · rw [whole, hostOf_of_listed hosts listed (Or.inr opens)]
      exact ⟨whole ▸ visible, listed⟩

/-- The check is exact on a header unless an allowed literal is trailed in it. -/
theorem host_allowlist_exact_iff (hosts : Hosts allowed) (header : String) :
    (hostAllowed (some header) allowed = true ↔ NamesHost allowed header) ↔
      ¬TrailsLiteral allowed header := by
  rw [hostAllowed_iff hosts]
  constructor
  · intro same trails
    -- Both descriptions cut the header at the same place, so they would share its tail.
    obtain ⟨host, tail, whole, listed, ends⟩ := same.mp (Or.inr trails)
    obtain ⟨_, host', tail', whole', listed', opens, other⟩ := trails
    have one := hostOf_of_listed hosts listed (Or.inl ends)
    have two : hostOf (host' ++ tail') = host' := hostOf_of_listed hosts listed' (Or.inr opens)
    rw [← whole, whole', two] at one
    rw [whole', one] at whole
    exact other (append_cancel_left whole ▸ ends)
  · exact or_iff_left

end

theorem hosts_loopback : Hosts ["localhost", "[::1]"] := by
  intro a member
  rcases mem_pair.mp member with rfl | rfl
  · exact ⟨Or.inl (by decide), all_eq_true.mp (by decide)⟩
  · exact ⟨Or.inr ⟨"[::1".toList, by decide⟩, all_eq_true.mp (by decide)⟩

theorem host_allowlist_exact_loopback : NamesHost ["localhost", "[::1]"] "LocalHost:8443" := by
  refine ((host_allowlist_exact_iff hosts_loopback _).mpr ?_).mp (by decide +kernel)
  rintro ⟨_, host, tail, whole, _, opens, _⟩
  cases host with
  | nil => cases opens
  | cons c rest => cases (List.cons.inj whole).1.trans (Option.some.inj opens)

theorem trailing_host_accepted : Hosts ["localhost", "[::1]"] ∧
    hostAllowed (some "[::1]junk") ["localhost", "[::1]"] = true ∧
      ¬NamesHost ["localhost", "[::1]"] "[::1]junk" := by
  refine ⟨hosts_loopback, by decide +kernel, ?_⟩
  rintro ⟨host, tail, whole, listed, ends⟩
  have cut := hostOf_of_listed hosts_loopback listed (Or.inl ends)
  have five : hostOf "[::1]junk".toList = "[::1]".toList := by decide +kernel
  rw [← whole, five] at cut
  rw [← cut] at whole
  obtain rfl : tail = "junk".toList := by simpa using whole.symm
  rcases ends with none | ⟨port, _, same⟩
  · cases none
  · cases same

end RelayFabric.Ui
