import GossipNode.Proofs.Message.Length

/-!
# How long a list of addresses is

The address of a peer has only characters that take one byte each and stand for themselves in a
string.  So the length of a message that passes addresses on is known to the byte, and each of its
addresses takes no more than so many.

## Main definitions

* `Bare` — a text without anything to escape.
* `gossipSize` — how many bytes it takes to pass addresses on.

## Main results

* `Peer.bare_listenAddress` — the address of a peer is bare.
* `Message.length_encode_addresses` — **how long a message is that passes addresses on.**
* `gossipSize_le` — how long it can be.
-/

namespace GossipNode

/-! ### Texts without anything to escape -/

/-- Whether a character takes one byte and stands for itself in a string. -/
def isBare (c : Char) : Bool :=
  decide (0x20 ≤ c.toNat) && decide (c.toNat < 0x80) && c != '"' && c != '\\'

/-- A text whose characters all take one byte and stand for themselves in a string. -/
def Bare (s : String) : Prop := ∀ c ∈ s.toList, isBare c = true

instance (s : String) : Decidable (Bare s) :=
  decidable_of_iff (s.toList.all isBare = true) List.all_eq_true

theorem length_escape_bare {c : Char} (bare : isBare c = true) :
    ((Utf8.encodeChar c).flatMap JsonString.escape).length = 1 := by
  simp only [isBare, Bool.and_eq_true, decide_eq_true_eq, bne_iff_ne] at bare
  obtain ⟨⟨⟨visible, low⟩, not_quote⟩, not_slash⟩ := bare
  have value : (UInt8.ofNat c.toNat).toNat = c.toNat := by
    rw [UInt8.toNat_ofNat']
    omega
  have other (d : Char) (b : UInt8) (number : b.toNat = d.toNat) (differ : c ≠ d) :
      UInt8.ofNat c.toNat ≠ b := by
    intro same
    rw [← same, value] at number
    exact differ (Char.toNat_inj.mp number)
  have above : 0x20 ≤ UInt8.ofNat c.toNat := by
    rw [UInt8.le_iff_toNat_le, value]
    exact visible
  unfold Utf8.encodeChar
  simp only
  rw [if_pos low, List.flatMap_singleton, JsonString.escape,
    if_neg (other '"' 0x22 rfl not_quote), if_neg (other '\\' 0x5C rfl not_slash), if_pos above]
  rfl

/-- A bare text takes two bytes beyond its characters. -/
theorem JsonString.length_render_bare {s : String} (bare : Bare s) :
    (render s).length = s.length + 2 := by
  have each : ∀ cs : List Char, (∀ c ∈ cs, isBare c = true) →
      ((cs.flatMap Utf8.encodeChar).flatMap escape).length = cs.length := by
    intro cs
    induction cs with
    | nil => exact fun _ => rfl
    | cons c cs ih =>
      intro all
      have first := length_escape_bare (all c List.mem_cons_self)
      have others := ih fun d hd => all d (List.mem_cons_of_mem c hd)
      rw [List.flatMap_cons, List.flatMap_append, List.length_append, first, others,
        List.length_cons, Nat.add_comm]
  have text := each s.toList bare
  rw [String.length_toList] at text
  simp only [render, List.length_append, List.length_cons, List.length_nil]
  show ((s.toList.flatMap Utf8.encodeChar).flatMap escape).length + 1 + 1 = s.length + 2
  rw [text]

theorem bare_append {s t : String} (first : Bare s) (second : Bare t) : Bare (s ++ t) := by
  intro c there
  rw [String.toList_append, List.mem_append] at there
  exact there.elim (first c) (second c)

theorem bare_intercalate {separator : String} (between : Bare separator) {parts : List String}
    (each : ∀ part ∈ parts, Bare part) : Bare (separator.intercalate parts) := by
  induction parts with
  | nil => exact fun c there => by cases there
  | cons part parts ih =>
    have first := each part List.mem_cons_self
    have others := ih fun other h => each other (List.mem_cons_of_mem part h)
    cases parts with
    | nil =>
      rw [String.intercalate_singleton]
      exact first
    | cons next parts =>
      rw [String.intercalate_cons_cons]
      exact bare_append (bare_append first between) others

/-- Digits are bare. -/
theorem isBare_of_mem_toDigits {base n : Nat} (large : 1 < base) {c : Char}
    (there : c ∈ Nat.toDigits base n) : isBare c = true := by
  have either (q : Prop) [Decidable q] {c d : Char} (first : isBare c = true)
      (second : isBare d = true) : isBare (if q then c else d) = true := by
    split
    · exact first
    · exact second
  have digit (d : Nat) : isBare (Nat.digitChar d) = true := by
    unfold Nat.digitChar
    repeat refine either _ rfl ?_
    rfl
  induction n using Nat.strongRecOn with
  | _ n ih =>
    rw [Nat.toDigits_eq_if large] at there
    split at there
    · rw [List.mem_singleton.mp there]
      exact digit n
    · next many =>
      rcases List.mem_append.mp there with front | last
      · exact ih (n / base) (Nat.div_lt_self (by omega) large) front
      · rw [List.mem_singleton.mp last]
        exact digit (n % base)

theorem bare_toDigits {base n : Nat} (large : 1 < base) :
    Bare (String.ofList (Nat.toDigits base n)) := by
  intro c there
  rw [String.toList_ofList] at there
  exact isBare_of_mem_toDigits large there

theorem bare_toString_nat (n : Nat) : Bare (toString n) := by
  rw [Nat.toString_eq_ofList_toDigits]
  exact bare_toDigits (by decide)

theorem bare_toString_int (i : Int) : Bare (toString i) := by
  show Bare (Int.repr i)
  cases i with
  | ofNat n => exact bare_toString_nat n
  | negSucc n => exact bare_append (by decide : Bare "-") (bare_toString_nat (n + 1))

/-! ### Addresses -/

theorem IPv4.bare_render (ip : IPv4) : Bare ip.render := by
  refine bare_intercalate (by decide) fun part h => ?_
  obtain ⟨b, -, rfl⟩ := List.mem_map.mp h
  exact bare_toString_nat b.toNat

theorem IPv6.bare_renderGroups (groups : List UInt16) : Bare (renderGroups groups) := by
  refine bare_intercalate (by decide) fun part h => ?_
  obtain ⟨g, -, rfl⟩ := List.mem_map.mp h
  exact bare_toDigits (by decide)

theorem IPv6.bare_render (ip : IPv6) : Bare ip.render := by
  unfold render
  split
  · exact bare_append (by decide) (IPv4.bare_render _)
  · simp only
    split
    · exact bare_append (bare_append (bare_renderGroups _) (by decide)) (bare_renderGroups _)
    · exact bare_renderGroups _

/-- The address of a peer has nothing to escape. -/
theorem Peer.bare_listenAddress {p : Peer} {a : String} (h : p.listenAddress = some a) :
    Bare a := by
  unfold listenAddress at h
  obtain ⟨info, -, rfl⟩ := Option.map_eq_some_iff.mp h
  refine bare_append (bare_append ?_ (by decide)) (bare_toString_int _)
  cases p.remote.ip with
  | v4 ip => exact ip.bare_render
  | v6 ip => exact ip.bare_render

/-- Parts with something between them, and nothing behind the last one. -/
theorem length_intercalate_add_le {separator : String} {parts : List String} {k : Nat}
    (some_parts : parts ≠ []) (bound : ∀ part ∈ parts, part.length ≤ k) :
    (separator.intercalate parts).length + separator.length ≤
      (k + separator.length) * parts.length := by
  induction parts with
  | nil => exact absurd rfl some_parts
  | cons part parts ih =>
    have first := bound part List.mem_cons_self
    cases parts with
    | nil =>
      rw [String.intercalate_singleton, List.length_singleton]
      omega
    | cons next parts =>
      have others := ih (List.cons_ne_nil _ _)
        fun other h => bound other (List.mem_cons_of_mem part h)
      rw [String.intercalate_cons_cons, String.length_append, String.length_append,
        List.length_cons, Nat.mul_succ]
      omega

/-- A run of zeros ends where the groups end. -/
theorem IPv6.longestRun_le (groups : List UInt16) :
    (longestRun groups).1 + (longestRun groups).2 ≤ groups.length := by
  unfold longestRun
  refine List.foldlRecOn (motive := fun best : Nat × Nat => best.1 + best.2 ≤ groups.length)
    _ _ (Nat.zero_le _) fun best short i inside => ?_
  have run : zeroRun (groups.drop i) ≤ groups.length - i := by
    rw [← List.length_drop]
    exact (List.takeWhile_sublist _).length_le
  have before := List.mem_range.mp inside
  simp only
  split
  · show i + zeroRun (groups.drop i) ≤ groups.length
    omega
  · exact short

theorem IPv6.length_render_le (ip : IPv6) : ip.render.length ≤ 39 := by
  have each (groups : List UInt16) :
      ∀ part ∈ groups.map fun g => String.ofList (Nat.toDigits 16 g.toNat), part.length ≤ 4 := by
    intro part h
    obtain ⟨g, -, rfl⟩ := List.mem_map.mp h
    rw [String.length_ofList]
    exact length_toDigits_le (by decide) (by decide) g.toNat_lt
  have one : ":".length = 1 := rfl
  have eight := ip.length_eq
  unfold render
  split
  · have dotted := IPv4.length_render
    rw [String.length_append]
    exact Nat.le_trans (Nat.add_le_add_left (dotted _) _) (by decide)
  · simp only
    have inside := longestRun_le ip.groups
    split
    · -- At most six groups are left beside a gap.
      have front := @length_intercalate_le ":" _ _
        (each (ip.groups.take (longestRun ip.groups).1))
      have back := @length_intercalate_le ":" _ _
        (each (ip.groups.drop ((longestRun ip.groups).1 + (longestRun ip.groups).2)))
      rw [List.length_map, one] at front back
      rw [List.length_take] at front
      rw [List.length_drop] at back
      have gap : "::".length = 2 := rfl
      rw [String.length_append, String.length_append, gap]
      unfold renderGroups
      refine Nat.le_trans (Nat.add_le_add (Nat.add_le_add_right front 2) back) ?_
      omega
    · have some_groups : ip.groups.map (fun g => String.ofList (Nat.toDigits 16 g.toNat)) ≠ [] := by
        refine List.ne_nil_of_length_pos ?_
        rw [List.length_map]
        omega
      have whole := @length_intercalate_add_le ":" _ _ some_groups (each ip.groups)
      rw [List.length_map, one, eight] at whole
      unfold renderGroups
      omega

/-- The address of a peer takes no more than this. -/
theorem Peer.length_listenAddress_le {p : Peer} {a : String} (h : p.listenAddress = some a) :
    a.length ≤ 51 := by
  unfold listenAddress at h
  obtain ⟨info, -, rfl⟩ := Option.map_eq_some_iff.mp h
  have ip : p.remote.ip.render.length ≤ 39 := by
    cases p.remote.ip with
    | v4 ip => exact Nat.le_trans ip.length_render (by decide)
    | v6 ip => exact ip.length_render_le
  have port := length_toString_int32 info.listenPort
  have colon : ":".length = 1 := rfl
  rw [String.length_append, String.length_append, colon]
  omega

/-! ### Messages -/

/-- How many bytes it takes to pass addresses on: three for each of them beyond its characters, and
some around the list. -/
def gossipSize (addresses : List String) : Nat :=
  addresses.foldr (fun a n => a.length + 3 + n) 36

@[simp] theorem gossipSize_cons (a : String) (addresses : List String) :
    gossipSize (a :: addresses) = a.length + 3 + gossipSize addresses := rfl

/-- **How long a message is that passes addresses on.** -/
theorem Message.length_encode_addresses {addresses : List String} (some_listed : addresses ≠ [])
    (bare : ∀ a ∈ addresses, Bare a) :
    (discovery addresses).encode.length = gossipSize addresses := by
  have items : ∀ as : List String, (∀ a ∈ as, Bare a) →
      (Json.renderItems (as.map fun a => Json.scalar (.string a))).length + 36 =
        gossipSize as := by
    intro as
    induction as with
    | nil => exact fun _ => rfl
    | cons a as ih =>
      intro all
      have first := JsonString.length_render_bare (all a List.mem_cons_self)
      have others := ih fun b hb => all b (List.mem_cons_of_mem a hb)
      rw [gossipSize_cons, ← others, List.map_cons, Json.renderItems_cons, List.length_cons,
        List.length_append, Json.render_scalar, Scalar.render, first]
      omega
  obtain ⟨a, as, rfl⟩ := List.exists_cons_of_ne_nil some_listed
  have first := JsonString.length_render_bare (bare a List.mem_cons_self)
  have others := items as fun b hb => bare b (List.mem_cons_of_mem a hb)
  have label : (JsonString.render "addresses").length = 11 := by decide
  have tag : (decimalBytes (discovery (a :: as)).envelope.tag.toNat).length = 1 := by
    show (decimalBytes 1).length = 1
    decide
  have none_left : (Json.renderMembers []).length = 0 := rfl
  show (discovery (a :: as)).envelope.render.length = _
  rw [Envelope.length_render, tag, gossipSize_cons, ← others]
  simp only [envelope, payload, List.map_cons, Json.render_object_cons, Json.render_array_cons,
    List.length_cons, List.length_append, List.length_nil, Json.length_renderMember,
    Json.render_scalar, Scalar.render]
  omega

/-- How long it can be. -/
theorem gossipSize_le {addresses : List String} {k : Nat} (short : ∀ a ∈ addresses, a.length ≤ k) :
    gossipSize addresses ≤ (k + 3) * addresses.length + 36 := by
  induction addresses with
  | nil => exact Nat.le_add_left 36 _
  | cons a addresses ih =>
    have first := short a List.mem_cons_self
    have others := ih fun b hb => short b (List.mem_cons_of_mem a hb)
    rw [gossipSize_cons, List.length_cons, Nat.mul_succ]
    omega

@[simp] theorem gossipSize_replicate (n : Nat) (a : String) :
    gossipSize (List.replicate n a) = n * (a.length + 3) + 36 := by
  induction n with
  | zero => rw [Nat.zero_mul]; rfl
  | succ n ih =>
    rw [List.replicate_succ, gossipSize_cons, ih, Nat.succ_mul]
    omega

end GossipNode
