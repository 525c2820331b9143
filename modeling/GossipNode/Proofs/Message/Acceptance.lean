import GossipNode.Proofs.Message.Payload

/-!
# Which payloads are messages

What a message may look like inside its envelope is said here without a reader: each kind has an
object form and an array form, a reason has two spellings, and every number, name and text has one.
The reader of payloads accepts these forms and no others, and of an object it looks at the members
of the record only.

## Main definitions

* `Names` — the spellings of a reason.
* `Denotes` — the payloads that stand for a message.
* `MessageKind.fieldNames` — the members of a kind's record.

## Main results

* `Schema.peerInfo_eq_ok`, `Schema.discovery_eq_ok`, `Schema.disconnect_eq_ok` — what each of the
  records is read off.
* `Message.ofPayload_eq_ok` — a payload is read as a message just if it stands for it.
* `Message.ofPayload_congr` — members that belong to no record do not matter.
* `Envelope.message_exact` — **what comes of every envelope.**
-/

namespace GossipNode

/-! ### What stands for a message -/

/-- The value that stands for the name of a node: an array of its sixteen bytes. -/
def Json.ofName (name : NodeName) : Json :=
  .array (name.bytes.map fun b => .scalar (.integer b.toNat))

/-- The value that stands for a list of texts. -/
def Json.ofStrings (texts : List String) : Json := .array (texts.map fun a => .scalar (.string a))

/-- The spellings of a reason. -/
inductive Names : Json → DisconnectReason → Prop
  /-- Its name. -/
  | text (why : DisconnectReason) : Names (.scalar (.string why.wireName)) why
  /-- An object with the name as its only member, and null as the value. -/
  | key (why : DisconnectReason) : Names (.object [(why.wireName, .scalar .null)]) why

/-- The payloads that stand for a message. -/
inductive Denotes : Json → Message → Prop
  /-- An object that has at least the five fields of an introduction. -/
  | introduction {members : List (String × Json)} {info : PeerInfo}
    (name : members.lookup "name" = some (.ofName info.name))
    (listenPort : members.lookup "listen_port" = some (.ofInt32 info.listenPort))
    (version : members.lookup "version" = some (.ofInt32 info.version))
    (networkId : members.lookup "network_id" = some (.ofInt32 info.networkId))
    (uid : members.lookup "uid" = some (.ofInt32 info.uid)) :
    Denotes (.object members) (.peerInfo info)
  /-- The five fields of an introduction in their order. -/
  | introductionList (info : PeerInfo) :
    Denotes (.array [.ofName info.name, .ofInt32 info.listenPort, .ofInt32 info.version,
      .ofInt32 info.networkId, .ofInt32 info.uid]) (.peerInfo info)
  /-- An object that has at least the addresses. -/
  | addresses {members : List (String × Json)} {texts : List String}
    (addresses : members.lookup "addresses" = some (.ofStrings texts)) :
    Denotes (.object members) (.discovery texts)
  /-- An array of the addresses, which are an array themselves. -/
  | addressesList (texts : List String) : Denotes (.array [.ofStrings texts]) (.discovery texts)
  /-- An object that has at least the two fields of a farewell. -/
  | farewell {members : List (String × Json)} {v : Json} {why : DisconnectReason} {text : String}
    (reason : members.lookup "reason" = some v) (named : Names v why)
    (words : members.lookup "text" = some (.scalar (.string text))) :
    Denotes (.object members) (.disconnect why text)
  /-- The two fields of a farewell in their order. -/
  | farewellList {v : Json} {why : DisconnectReason} {text : String} (named : Names v why) :
    Denotes (.array [v, .scalar (.string text)]) (.disconnect why text)

/-- The members of the record of a kind. -/
def MessageKind.fieldNames : MessageKind → List String
  | .peerInfo => ["name", "listen_port", "version", "network_id", "uid"]
  | .discovery => ["addresses"]
  | .disconnect => ["reason", "text"]

namespace Schema

/-- One reader after the other succeeds just if both do. -/
theorem bind_eq_ok {ε α β : Type} {x : Except ε α} {f : α → Except ε β} {b : β} :
    (x >>= f) = .ok b ↔ ∃ a, x = .ok a ∧ f a = .ok b := by
  cases x <;> simp [bind, Except.bind]

/-! ### Scalars -/

theorem integer_eq_ok {least greatest n : Int} {wanted : Shape} {v : Json} :
    integer least greatest wanted v = .ok n ↔
      v = .scalar (.integer n) ∧ least ≤ n ∧ n ≤ greatest := by
  constructor
  · intro h
    unfold integer at h
    split at h
    · next m =>
      split at h
      · next inside =>
        cases h
        exact ⟨rfl, inside⟩
      · cases h
    · cases h
  · rintro ⟨rfl, inside⟩
    simp only [integer]
    rw [if_pos inside]

theorem byte_eq_ok {v : Json} {b : UInt8} : byte v = .ok b ↔ v = .scalar (.integer b.toNat) := by
  constructor
  · intro h
    obtain ⟨n, hn, hb⟩ := bind_eq_ok.1 h
    obtain ⟨rfl, least, greatest⟩ := integer_eq_ok.1 hn
    cases hb
    have value : (UInt8.ofNat n.toNat).toNat = n.toNat := by
      rw [UInt8.toNat_ofNat', Nat.mod_eq_of_lt (by omega)]
    rw [value, Int.toNat_of_nonneg least]
  · rintro rfl
    exact byte_toNat b

theorem int32_eq_ok {v : Json} {n : Int32} : int32 v = .ok n ↔ v = .ofInt32 n := by
  constructor
  · intro h
    obtain ⟨i, hi, hn⟩ := bind_eq_ok.1 h
    obtain ⟨rfl, least, greatest⟩ := integer_eq_ok.1 hi
    cases hn
    rw [Json.ofInt32, Int32.toInt_ofInt_of_le (by omega) (by omega)]
  · rintro rfl
    exact int32_ofInt32 n

theorem string_eq_ok {v : Json} {s : String} : string v = .ok s ↔ v = .scalar (.string s) := by
  constructor
  · intro h
    unfold string at h
    split at h
    · cases h
      rfl
    · cases h
  · rintro rfl
    rfl

/-! ### Lists -/

theorem noMoreThan_eq_ok {items : List Json} {n : Nat} :
    noMoreThan items n = .ok () ↔ items.length ≤ n := by
  unfold noMoreThan
  split <;> simp_all

/-- So many bytes stand at the front of the items. -/
theorem takeBytes_eq_ok {wanted : Shape} {n : Nat} : ∀ {i : Nat} {items : List Json} {bs : Bytes},
    takeBytes wanted i n items = .ok bs →
      bs.length = n ∧ ∃ more, items = (bs.map fun b => .scalar (.integer b.toNat)) ++ more := by
  induction n with
  | zero =>
    intro i items bs h
    cases h
    exact ⟨rfl, items, rfl⟩
  | succ n ih =>
    intro i items bs h
    cases items with
    | nil => cases h
    | cons v vs =>
      obtain ⟨b, hb, h⟩ := bind_eq_ok.1 h
      obtain ⟨others, hothers, h⟩ := bind_eq_ok.1 h
      cases h
      obtain ⟨length, more, rfl⟩ := ih hothers
      rw [byte_eq_ok.1 hb]
      exact ⟨by rw [List.length_cons, length], more, rfl⟩

theorem nodeName_ofName (name : NodeName) : nodeName (.ofName name) = .ok name :=
  nodeName_bytes name

theorem nodeName_eq_ok {v : Json} {name : NodeName} : nodeName v = .ok name ↔ v = .ofName name := by
  constructor
  · intro h
    unfold nodeName at h
    split at h
    · next items =>
      obtain ⟨bs, hbs, h⟩ := bind_eq_ok.1 h
      obtain ⟨_, enough, h⟩ := bind_eq_ok.1 h
      cases h
      obtain ⟨length, more, rfl⟩ := takeBytes_eq_ok hbs
      -- there are no more items than bytes, so nothing stands behind them
      have none_left := noMoreThan_eq_ok.1 enough
      rw [List.length_append, List.length_map, length] at none_left
      obtain rfl : more = [] := List.eq_nil_of_length_eq_zero (by omega)
      have same : (NodeName.ofBytes bs).bytes = bs := List.take_left' length
      rw [Json.ofName, same, List.append_nil]
    · cases h
  · rintro rfl
    exact nodeName_ofName name

theorem strings_ofStrings (texts : List String) : strings (.ofStrings texts) = .ok texts :=
  strings_map texts

theorem strings_eq_ok {v : Json} {texts : List String} :
    strings v = .ok texts ↔ v = .ofStrings texts := by
  constructor
  · intro h
    unfold strings at h
    split at h
    · next items =>
      rw [Json.ofStrings]
      congr 1
      induction items generalizing texts with
      | nil =>
        cases h
        rfl
      | cons v vs ih =>
        rw [List.mapM_cons] at h
        obtain ⟨s, hs, h⟩ := bind_eq_ok.1 h
        obtain ⟨others, hothers, h⟩ := bind_eq_ok.1 h
        cases h
        rw [string_eq_ok.1 hs, ih hothers, List.map_cons]
    · cases h
  · rintro rfl
    exact strings_ofStrings texts

/-! ### Reasons -/

theorem named_eq_ok {name : String} {why : DisconnectReason} :
    reason.named name = .ok why ↔ name = why.wireName := by
  constructor
  · intro h
    unfold reason.named at h
    split at h
    · next r found =>
      cases h
      unfold DisconnectReason.ofWireName? at found
      have same := List.find?_some found
      exact (of_decide_eq_true same).symm
    · cases h
  · rintro rfl
    cases why <;> rfl

theorem reason_eq_ok {v : Json} {why : DisconnectReason} : reason v = .ok why ↔ Names v why := by
  constructor
  · intro h
    unfold reason at h
    split at h
    · rw [named_eq_ok.1 h]
      exact .text why
    · next name v =>
      obtain ⟨r, hr, h⟩ := bind_eq_ok.1 h
      split at h
      · cases h
        rw [named_eq_ok.1 hr]
        exact .key why
      · cases h
    · cases h
    · cases h
  · rintro (_ | _)
    · exact reason_wireName why
    · cases why <;> rfl

/-! ### Fields -/

theorem item_eq_ok {α : Type} {items : List Json} {record : Shape} {i : Nat} {read : Reads α}
    {a : α} : item items record i read = .ok a ↔ ∃ v, items[i]? = some v ∧ read v = .ok a := by
  unfold item
  split
  · next v h => simp [h]
  · next h => simp [h]

theorem member?_eq_ok {α : Type} {members : List (String × Json)} {name : String} {read : Reads α}
    {a : α} : member? members name read = .ok (some a) ↔
      ∃ v, members.lookup name = some v ∧ read v = .ok a := by
  unfold member?
  split
  · next v h => cases hread : read v <;> simp [h, hread, Except.map]
  · next h => simp [h]

theorem required_eq_ok {α : Type} {name : String} {field : Option α} {a : α} :
    required name field = .ok a ↔ field = some a := by
  cases field <;> simp [required]

/-! ### Records -/

theorem peerInfo_eq_ok {v : Json} {info : PeerInfo} :
    peerInfo v = .ok info ↔ Denotes v (.peerInfo info) := by
  constructor
  · intro h
    unfold peerInfo at h
    split at h
    · next items =>
      obtain ⟨name, hname, h⟩ := bind_eq_ok.1 h
      obtain ⟨port, hport, h⟩ := bind_eq_ok.1 h
      obtain ⟨version, hversion, h⟩ := bind_eq_ok.1 h
      obtain ⟨network, hnetwork, h⟩ := bind_eq_ok.1 h
      obtain ⟨uid, huid, h⟩ := bind_eq_ok.1 h
      obtain ⟨_, few, h⟩ := bind_eq_ok.1 h
      cases h
      simp only [item_eq_ok, nodeName_eq_ok, exists_eq_right] at hname
      simp only [item_eq_ok, int32_eq_ok, exists_eq_right] at hport hversion hnetwork huid
      have length := noMoreThan_eq_ok.1 few
      -- five of the places are known, and there are no others
      have all : items = [.ofName name, .ofInt32 port, .ofInt32 version, .ofInt32 network,
          .ofInt32 uid] := by
        refine List.ext_getElem? fun i => ?_
        match i with
        | 0 => exact hname
        | 1 => exact hport
        | 2 => exact hversion
        | 3 => exact hnetwork
        | 4 => exact huid
        | i + 5 => rw [List.getElem?_eq_none (by omega), List.getElem?_eq_none (by simp)]
      rw [all]
      exact .introductionList ⟨name, port, version, network, uid⟩
    · next members =>
      -- members are read in the order of their names, and asked for in the order of the record
      obtain ⟨port?, hport?, h⟩ := bind_eq_ok.1 h
      obtain ⟨name?, hname?, h⟩ := bind_eq_ok.1 h
      obtain ⟨network?, hnetwork?, h⟩ := bind_eq_ok.1 h
      obtain ⟨uid?, huid?, h⟩ := bind_eq_ok.1 h
      obtain ⟨version?, hversion?, h⟩ := bind_eq_ok.1 h
      obtain ⟨name, hname, h⟩ := bind_eq_ok.1 h
      obtain ⟨port, hport, h⟩ := bind_eq_ok.1 h
      obtain ⟨version, hversion, h⟩ := bind_eq_ok.1 h
      obtain ⟨network, hnetwork, h⟩ := bind_eq_ok.1 h
      obtain ⟨uid, huid, h⟩ := bind_eq_ok.1 h
      cases h
      obtain rfl := required_eq_ok.1 hname
      obtain rfl := required_eq_ok.1 hport
      obtain rfl := required_eq_ok.1 hversion
      obtain rfl := required_eq_ok.1 hnetwork
      obtain rfl := required_eq_ok.1 huid
      simp only [member?_eq_ok, nodeName_eq_ok, exists_eq_right] at hname?
      simp only [member?_eq_ok, int32_eq_ok, exists_eq_right] at hport? hversion? hnetwork? huid?
      exact .introduction hname? hport? hversion? hnetwork? huid?
    · cases h
  · rintro (⟨name, port, version, network, uid⟩ | _)
    · simp only [peerInfo, member?, name, port, version, network, uid, nodeName_ofName,
        int32_ofInt32, Except.map, required, bind, Except.bind, pure, Except.pure]
    · simp only [peerInfo, item, List.getElem?_cons_zero, List.getElem?_cons_succ,
        nodeName_ofName, int32_ofInt32, bind, Except.bind, pure, Except.pure]
      rfl

theorem discovery_eq_ok {v : Json} {texts : List String} :
    discovery v = .ok texts ↔ Denotes v (.discovery texts) := by
  constructor
  · intro h
    unfold discovery at h
    split at h
    · next items =>
      obtain ⟨found, hfound, h⟩ := bind_eq_ok.1 h
      obtain ⟨_, few, h⟩ := bind_eq_ok.1 h
      cases h
      simp only [item_eq_ok, strings_eq_ok, exists_eq_right] at hfound
      have length := noMoreThan_eq_ok.1 few
      have all : items = [.ofStrings texts] := by
        refine List.ext_getElem? fun i => ?_
        match i with
        | 0 => exact hfound
        | i + 1 => rw [List.getElem?_eq_none (by omega), List.getElem?_eq_none (by simp)]
      rw [all]
      exact .addressesList texts
    · next members =>
      obtain ⟨found, hfound, h⟩ := bind_eq_ok.1 h
      obtain rfl := required_eq_ok.1 h
      simp only [member?_eq_ok, strings_eq_ok, exists_eq_right] at hfound
      exact .addresses hfound
    · cases h
  · rintro (_ | _ | h | _)
    · simp only [discovery, member?, h, strings_ofStrings, Except.map, required, bind, Except.bind]
    · simp only [discovery, item, List.getElem?_cons_zero, strings_ofStrings, bind, Except.bind, pure,
        Except.pure]
      rfl

theorem disconnect_eq_ok {v : Json} {why : DisconnectReason} {text : String} :
    disconnect v = .ok (why, text) ↔ Denotes v (.disconnect why text) := by
  constructor
  · intro h
    unfold disconnect at h
    split at h
    · next items =>
      obtain ⟨reason, hreason, h⟩ := bind_eq_ok.1 h
      obtain ⟨words, hwords, h⟩ := bind_eq_ok.1 h
      obtain ⟨_, few, h⟩ := bind_eq_ok.1 h
      cases h
      obtain ⟨v, first, named⟩ := item_eq_ok.1 hreason
      simp only [item_eq_ok, string_eq_ok, exists_eq_right] at hwords
      have length := noMoreThan_eq_ok.1 few
      have all : items = [v, .scalar (.string text)] := by
        refine List.ext_getElem? fun i => ?_
        match i with
        | 0 => exact first
        | 1 => exact hwords
        | i + 2 => rw [List.getElem?_eq_none (by omega), List.getElem?_eq_none (by simp)]
      rw [all]
      exact .farewellList (reason_eq_ok.1 named)
    · next members =>
      obtain ⟨reason?, hreason?, h⟩ := bind_eq_ok.1 h
      obtain ⟨words?, hwords?, h⟩ := bind_eq_ok.1 h
      obtain ⟨reason, hreason, h⟩ := bind_eq_ok.1 h
      obtain ⟨words, hwords, h⟩ := bind_eq_ok.1 h
      cases h
      obtain rfl := required_eq_ok.1 hreason
      obtain rfl := required_eq_ok.1 hwords
      obtain ⟨v, there, named⟩ := member?_eq_ok.1 hreason?
      simp only [member?_eq_ok, string_eq_ok, exists_eq_right] at hwords?
      exact .farewell there (reason_eq_ok.1 named) hwords?
    · cases h
  · rintro (_ | _ | _ | _ | ⟨there, named, words⟩ | named)
    · simp only [disconnect, member?, there, words, reason_eq_ok.2 named, string, Except.map,
        required, bind, Except.bind, pure, Except.pure]
    · simp only [disconnect, item, List.getElem?_cons_zero, List.getElem?_cons_succ,
        reason_eq_ok.2 named, string, bind, Except.bind, pure, Except.pure]
      rfl

end Schema

namespace Message

/-- A payload is read as a message just if it stands for one of the kind. -/
theorem ofPayload_eq_ok {kind : MessageKind} {v : Json} {m : Message} :
    ofPayload kind v = .ok m ↔ m.kind = kind ∧ Denotes v m := by
  cases kind with
  | peerInfo =>
    constructor
    · intro h
      obtain ⟨info, hinfo, h⟩ := Schema.bind_eq_ok.1 h
      cases h
      exact ⟨rfl, Schema.peerInfo_eq_ok.1 hinfo⟩
    · rintro ⟨same, denotes⟩
      cases m <;> cases same
      exact Schema.bind_eq_ok.2 ⟨_, Schema.peerInfo_eq_ok.2 denotes, rfl⟩
  | discovery =>
    constructor
    · intro h
      obtain ⟨texts, htexts, h⟩ := Schema.bind_eq_ok.1 h
      cases h
      exact ⟨rfl, Schema.discovery_eq_ok.1 htexts⟩
    · rintro ⟨same, denotes⟩
      cases m <;> cases same
      exact Schema.bind_eq_ok.2 ⟨_, Schema.discovery_eq_ok.2 denotes, rfl⟩
  | disconnect =>
    constructor
    · intro h
      obtain ⟨⟨why, text⟩, hpair, h⟩ := Schema.bind_eq_ok.1 h
      cases h
      exact ⟨rfl, Schema.disconnect_eq_ok.1 hpair⟩
    · rintro ⟨same, denotes⟩
      cases m <;> cases same
      exact Schema.bind_eq_ok.2 ⟨(_, _), Schema.disconnect_eq_ok.2 denotes, rfl⟩

/-- Of an object only the members of the record are looked at: others change neither the message
nor the fault. -/
theorem ofPayload_congr {kind : MessageKind} {members others : List (String × Json)}
    (agree : ∀ name ∈ kind.fieldNames, others.lookup name = members.lookup name) :
    ofPayload kind (.object others) = ofPayload kind (.object members) := by
  cases kind <;>
    simp only [MessageKind.fieldNames, List.mem_cons, List.not_mem_nil, or_false, forall_eq_or_imp,
      forall_eq] at agree <;>
    simp only [ofPayload, Schema.peerInfo, Schema.discovery, Schema.disconnect, Schema.member?,
      agree]

end Message

namespace Envelope

/-- The tags above two are those of no kind. -/
theorem tag_ne_of_lt {tag : UInt64} (above : 2 < tag) (kind : MessageKind) : tag ≠ kind.tag := by
  rintro rfl
  cases kind <;> exact absurd above (by decide)

/-- All others are those of a kind. -/
theorem exists_kind_of_not_lt {tag : UInt64} (below : ¬ 2 < tag) :
    ∃ kind : MessageKind, tag = kind.tag := by
  have two : (2 : UInt64).toNat = 2 := rfl
  rw [UInt64.lt_iff_toNat_lt, two] at below
  have value : tag.toNat = 0 ∨ tag.toNat = 1 ∨ tag.toNat = 2 := by omega
  rcases value with h | h | h
  · exact ⟨.peerInfo, UInt64.toNat_inj.1 h⟩
  · exact ⟨.discovery, UInt64.toNat_inj.1 h⟩
  · exact ⟨.disconnect, UInt64.toNat_inj.1 h⟩

theorem tag_inj {kind other : MessageKind} (h : kind.tag = other.tag) : kind = other := by
  have known := Message.ofTag?_tag kind
  rw [h, Message.ofTag?_tag] at known
  exact (Option.some.inj known).symm

theorem message_of_lt {e : Envelope} (above : 2 < e.tag) :
    e.message = .error (.unknownType e.tag) := by
  have unknown : MessageKind.ofTag? e.tag = none := by
    have zero : e.tag ≠ 0 := tag_ne_of_lt above .peerInfo
    have one : e.tag ≠ 1 := tag_ne_of_lt above .discovery
    have two : e.tag ≠ 2 := tag_ne_of_lt above .disconnect
    simp [MessageKind.ofTag?, zero, one, two]
  simp only [message, unknown]

/-- Below that, the payload decides. -/
theorem message_of_tag {e : Envelope} {kind : MessageKind} (h : e.tag = kind.tag) :
    (∃ m, Message.ofPayload kind e.payload = .ok m ∧ e.message = .ok m) ∨
      ∃ fault, Message.ofPayload kind e.payload = .error fault ∧
        e.message = .error (.payload kind fault) := by
  simp only [message, h, Message.ofTag?_tag]
  cases Message.ofPayload kind e.payload with
  | ok m => exact Or.inl ⟨m, rfl, rfl⟩
  | error fault => exact Or.inr ⟨fault, rfl, rfl⟩

theorem message_eq_ok {e : Envelope} {m : Message} :
    e.message = .ok m ↔ e.tag = m.kind.tag ∧ Denotes e.payload m := by
  by_cases above : 2 < e.tag
  · rw [message_of_lt above]
    exact ⟨fun h => (by cases h), fun h => absurd h.1 (tag_ne_of_lt above m.kind)⟩
  · obtain ⟨kind, htag⟩ := exists_kind_of_not_lt above
    rcases message_of_tag htag with ⟨found, read, result⟩ | ⟨fault, read, result⟩
    · obtain ⟨rfl, denotes⟩ := Message.ofPayload_eq_ok.1 read
      rw [result]
      constructor
      · intro h
        cases h
        exact ⟨htag, denotes⟩
      · -- a payload stands for one message of a kind at most, as the reader gives only one
        rintro ⟨tag, denoted⟩
        have same := tag_inj (htag.symm.trans tag)
        rw [Message.ofPayload_eq_ok.2 ⟨same.symm, denoted⟩] at read
        rw [Except.ok.inj read]
    · rw [result]
      refine ⟨fun h => (by cases h), fun h => ?_⟩
      obtain ⟨tag, denoted⟩ := h
      have same := tag_inj (htag.symm.trans tag)
      rw [Message.ofPayload_eq_ok.2 ⟨same.symm, denoted⟩] at read
      cases read

/-- **What comes of every envelope.**  A tag above two is that of an unknown kind.  Else the message
is the one that the payload stands for, of the kind that the tag announces; if it stands for none,
the payload is at fault, and the fault is one of that kind.  Of these errors only the unknown kind
leaves the connection open.  Members of an object that belong to no record of the kind do not
matter. -/
theorem message_exact (e : Envelope) :
    (∀ tag, e.message = .error (.unknownType tag) ↔ tag = e.tag ∧ 2 < e.tag) ∧
    (∀ m, e.message = .ok m ↔ e.tag = m.kind.tag ∧ Denotes e.payload m) ∧
    (∀ kind : MessageKind, e.tag = kind.tag → (∀ m, m.kind = kind → ¬ Denotes e.payload m) →
      ∃ fault, e.message = .error (.payload kind fault)) ∧
    (∀ error, e.message = .error error → (error.isFatal = true ↔ e.tag ≤ 2)) ∧
    (∀ (kind : MessageKind) (members others : List (String × Json)), e.tag = kind.tag →
      e.payload = .object members →
      (∀ name ∈ kind.fieldNames, others.lookup name = members.lookup name) →
      (⟨e.tag, .object others⟩ : Envelope).message = e.message) := by
  refine ⟨fun tag => ?_, fun m => message_eq_ok, fun kind htag nothing => ?_,
    fun error h => ?_, fun kind members others htag hpayload agree => ?_⟩
  · by_cases above : 2 < e.tag
    · rw [message_of_lt above, Except.error.injEq, DecodeError.unknownType.injEq]
      exact ⟨fun same => ⟨same.symm, above⟩, fun same => same.1.symm⟩
    · obtain ⟨kind, htag⟩ := exists_kind_of_not_lt above
      rcases message_of_tag htag with ⟨m, -, result⟩ | ⟨fault, -, result⟩ <;>
      · rw [result]
        exact ⟨fun h => (by cases h), fun h => absurd h.2 above⟩
  · rcases message_of_tag htag with ⟨m, -, result⟩ | ⟨fault, -, result⟩
    · obtain ⟨tag, denoted⟩ := message_eq_ok.1 result
      exact absurd denoted (nothing m (tag_inj (tag.symm.trans htag)))
    · exact ⟨fault, result⟩
  · by_cases above : 2 < e.tag
    · rw [message_of_lt above] at h
      cases h
      simpa [DecodeError.isFatal] using above
    · obtain ⟨kind, htag⟩ := exists_kind_of_not_lt above
      rcases message_of_tag htag with ⟨m, -, result⟩ | ⟨fault, -, result⟩
      · rw [result] at h
        cases h
      · rw [result] at h
        cases h
        simpa [DecodeError.isFatal] using above
  · obtain ⟨tag, payload⟩ := e
    simp only at htag hpayload ⊢
    subst hpayload
    simp only [message, htag, Message.ofTag?_tag, Message.ofPayload_congr agree]

/-- A farewell whose reason is spelled as an object, with a member that belongs to no record. -/
def foreign : Envelope where
  tag := 2
  payload := .object [("colour", .scalar .null),
    ("reason", .object [("BLOCKING", .scalar .null)]), ("text", .scalar (.string "bye"))]

/-- It is read as what it stands for. -/
theorem message_exact_foreign : foreign.tag = (Message.disconnect .blocking "bye").kind.tag ∧
    foreign.message = .ok (.disconnect .blocking "bye") :=
  ⟨rfl, ((message_exact foreign).2.1 _).2 ⟨rfl, .farewell rfl (.key .blocking) rfl⟩⟩

end Envelope

end GossipNode
