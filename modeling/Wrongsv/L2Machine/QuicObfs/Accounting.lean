import Wrongsv.L2Machine.QuicObfs.Gecko

/-!
# Gecko: the accounts of the reassembly table

`poll_recv` (server/handler/quic_obfs.rs:389-486) has a table of entries
and, for each source, a count of its entries. Entries are made, expire, are evicted
when the table is full, and are dropped when they are complete, whether the datagram
fits into the caller's buffer or not; the count has to follow each time.

Results: `Sound.receive`, `entriesOf_receive_le`, `accounting_invariant`.
-/
namespace Wrongsv.L2.Gecko
open L1.Gecko List

/-- The counter and the slots of an entry that is not complete. -/
structure GeckoReassemblyEntry.Sound (e : GeckoReassemblyEntry) : Prop where
  received : e.received = e.chunks.countP Option.isSome
  unfinished : e.received < e.total.toNat
  slots : e.chunks.length = e.total.toNat

namespace GeckoReceiver

/-- How many entries a source has. -/
def entriesOf (s : GeckoReceiver) (source : String) : Nat :=
  s.reassembly.keys.countP (·.addr = source)

structure Sound (s : GeckoReceiver) : Prop where
  /-- a source without entries has no count -/
  counted : ∀ source, s.perSource source = if s.entriesOf source = 0 then none else some (s.entriesOf source)
  perSource : ∀ source, s.entriesOf source ≤ geckoMaxPerSource
  table : s.reassembly.keys.length ≤ geckoMaxReassembly
  entries : ∀ k e, s.reassembly.lookup k = some e → e.Sound

theorem sound_new : new.Sound :=
  ⟨fun _ => rfl, fun _ => Nat.zero_le _, Nat.zero_le _, fun _ _ h => nomatch h⟩

variable {s s' : GeckoReceiver} {key : GeckoReassemblyKey} {e e' : GeckoReassemblyEntry}
  {p : Received}

/-! ## One operation -/

theorem entriesOf_dropEntry (s : GeckoReceiver) (key : GeckoReassemblyKey) (source : String) :
    (s.dropEntry key).entriesOf source =
      if key ∈ s.reassembly ∧ key.addr = source then s.entriesOf source - 1 else s.entriesOf source := by
  unfold dropEntry entriesOf
  by_cases hkey : key ∈ s.reassembly
  · have hperm := (perm_cons_erase (AList.mem_keys.mp hkey)).countP_eq (fun k => decide (k.addr = source))
    split <;> simp_all
  · simp [hkey]

theorem entriesOf_pos (h : key ∈ s.reassembly) : 0 < s.entriesOf key.addr :=
  List.countP_pos_iff.mpr ⟨key, AList.mem_keys.mp h, by simp⟩

theorem Sound.dropEntry (h : s.Sound) (key : GeckoReassemblyKey) : (s.dropEntry key).Sound := by
  refine ⟨fun source => ?_, fun source => ?_, ?_, fun k e he => ?_⟩
  · rw [entriesOf_dropEntry]
    unfold GeckoReceiver.dropEntry
    by_cases hkey : key ∈ s.reassembly
    · have hpos := entriesOf_pos hkey
      have hcount := h.counted key.addr
      rw [if_neg (by omega)] at hcount
      have hother := h.counted source
      simp only [hkey, if_true, true_and, hcount]
      grind
    · have hother := h.counted source
      simp only [hkey, if_false, false_and, hother]
  · have := h.perSource source
    rw [entriesOf_dropEntry]
    split <;> omega
  · exact Nat.le_trans (length_dropEntry_le s key) h.table
  · rw [lookup_dropEntry] at he
    split at he
    · cases he
    · exact h.entries k e he

/-- The cleaning up only drops entries. -/
theorem gc_rule {P : GeckoReceiver → Prop} (hdrop : ∀ s key, P s → P (s.dropEntry key))
    (order : Order) (now : Nat) (h : P s) : P (s.gcReassembly order now) := by
  have hexpired : ∀ keys : List GeckoReassemblyKey, ∀ s, P s → P (keys.foldl dropEntry s) := by
    intro keys
    induction keys with
    | nil => exact fun _ => id
    | cons key keys ih => exact fun s h => ih _ (hdrop s key h)
  have hevict : ∀ fuel s, P s → P (s.evict order fuel) := by
    intro fuel
    induction fuel with
    | zero => exact fun _ => id
    | succ fuel ih => grind [evict]
  exact hevict _ _ (hexpired _ s h)

theorem entriesOf_dropEntry_le (s : GeckoReceiver) (key : GeckoReassemblyKey) (source : String) :
    (s.dropEntry key).entriesOf source ≤ s.entriesOf source := by
  rw [entriesOf_dropEntry]
  split <;> omega

variable (order : Order)

theorem entriesOf_gc_le (now : Nat) (s : GeckoReceiver) (source : String) :
    (s.gcReassembly order now).entriesOf source ≤ s.entriesOf source :=
  gc_rule (fun s' key h => Nat.le_trans (entriesOf_dropEntry_le s' key source) h) order now (Nat.le_refl _)

theorem Sound.gc (h : s.Sound) (order : Order) (now : Nat) : (s.gcReassembly order now).Sound :=
  gc_rule (fun _ key h => h.dropEntry key) order now h

theorem mem_reassembly_iff : key ∈ s.reassembly ↔ ∃ e, s.reassembly.lookup key = some e :=
  ⟨fun h => Option.isSome_iff_exists.mp (AList.lookup_isSome.mpr h),
    fun h => AList.lookup_isSome.mp (Option.isSome_iff_exists.mpr h)⟩

theorem entriesOf_insert (hkey : key ∉ s.reassembly) (t : Table String Nat) (source : String) :
    entriesOf ⟨s.reassembly.insert key e, t⟩ source = s.entriesOf source + if key.addr = source then 1 else 0 := by
  unfold entriesOf
  rw [AList.keys_insert, erase_of_not_mem (fun h => hkey (AList.mem_keys.mpr h)), countP_cons]
  simp

/-- A new entry, where there is room for it. -/
theorem Sound.enter (h : s.Sound) (hroom : s.reassembly.keys.length < geckoMaxReassembly) {msgId total : UInt8}
    (htotal : 0 < total.toNat) (henter : s.enter p msgId total = some s') : s'.Sound := by
  unfold GeckoReceiver.enter at henter
  split at henter
  · cases henter
    exact h
  · rename_i hkey
    split at henter
    · cases henter
    have hcount := h.counted p.source
    cases henter
    refine ⟨fun source => ?_, fun source => ?_, ?_, fun k e he => ?_⟩
    · have hother := h.counted source
      grind [entriesOf_insert]
    · have hother := h.perSource source
      grind [entriesOf_insert]
    · rw [AList.keys_insert, erase_of_not_mem (fun h => hkey (AList.mem_keys.mpr h))]
      exact hroom
    · by_cases hk : k = ⟨p.source, msgId⟩
      · rw [hk, AList.lookup_insert] at he
        cases he
        exact ⟨by simp [GeckoReassemblyEntry.new, Slots.new, countP_replicate], htotal, Slots.new_length _⟩
      · rw [AList.lookup_insert_ne hk] at he
        exact h.entries k e he

theorem store_counts (h : e.Sound) {header : GeckoFrameHeader} {payload : Bytes}
    (hstore : e.store header payload = some e') : e'.received = e'.chunks.countP Option.isSome ∧
    e'.total = e.total ∧ e'.chunks.length = e.total.toNat := by
  unfold GeckoReassemblyEntry.store at hstore
  split at hstore
  · cases hstore
  rename_i hfits
  simp only [not_or, Nat.not_le] at hfits
  obtain ⟨-, hidx, hempty⟩ := hfits
  cases hstore
  refine ⟨?_, rfl, by rw [length_set]; exact h.slots⟩
  rw [List.getD_eq_getElem?_getD, List.getElem?_eq_getElem hidx, Option.getD_some] at hempty
  simp [countP_set, hidx, hempty, h.received]

/-- The entry of a message is replaced. -/
theorem keys_put (h : key ∈ s.reassembly) :
    (s.put key e).reassembly.keys.Perm s.reassembly.keys := by
  rw [put, AList.keys_insert]
  exact (perm_cons_erase (AList.mem_keys.mp h)).symm

theorem Sound.put (h : s.Sound) (hkey : key ∈ s.reassembly) (he : e.Sound) :
    (s.put key e).Sound := by
  have hcount : ∀ source, (s.put key e).entriesOf source = s.entriesOf source := fun _ => (keys_put hkey).countP_eq _
  refine ⟨fun source => hcount source ▸ h.counted source, fun source => hcount source ▸ h.perSource
    source, (keys_put hkey).length_eq ▸ h.table, fun k e' he' => ?_⟩
  by_cases hk : k = key
  · rw [hk, GeckoReceiver.put, AList.lookup_insert] at he'
    cases he'
    exact he
  · rw [GeckoReceiver.put, AList.lookup_insert_ne hk] at he'
    exact h.entries k e' he'

/-- Dropping an entry does not depend on what is in it. -/
theorem dropEntry_put (h : key ∈ s.reassembly) : (s.put key e).dropEntry key = s.dropEntry key := by
  have herase : (s.reassembly.insert key e).erase key = s.reassembly.erase key := by
    apply AList.ext
    simp [AList.erase, AList.insert]
  have hmem : key ∈ (s.put key e).reassembly := (AList.mem_insert _).mpr (.inl rfl)
  unfold dropEntry
  rw [if_pos hmem, if_pos h]
  simp only [put, herase]

/-! ## One packet -/

theorem not_bad_of_decode {data : Bytes} {header : GeckoFrameHeader} {payload : Bytes}
    (h : decodeGeckoFrame data = .ok (header, payload)) : ¬ header.Bad := by
  unfold decodeGeckoFrame at h
  grind

/-- The states a packet can lead to: the table may have been cleaned up, there may be a
new entry, and the message of the packet may have got a chunk or be over. -/
theorem receive_state (s : GeckoReceiver) (p : Received) :
    (s.receive order p).2 = s ∨ (s.receive order p).2 = s.gcReassembly order p.gcTime ∨
    ∃ s' msgId total, 0 < total.toNat ∧ (s.gcReassembly order p.gcTime).enter p msgId total = some s' ∧
      ((s.receive order p).2 = s' ∨ ∃ e header payload e',
        s'.reassembly.lookup ⟨p.source, msgId⟩ = some e ∧ e.store header payload = some e' ∧
          ((e'.received < e'.total.toNat ∧ (s.receive order p).2 = s'.put ⟨p.source, msgId⟩ e') ∨
            (s.receive order p).2 = (s'.put ⟨p.source, msgId⟩ e').dropEntry ⟨p.source, msgId⟩)) := by
  unfold receive
  split
  · exact .inl rfl
  split
  · exact .inl rfl
  split
  · exact .inl rfl
  rename_i header payload hdecode
  right
  have htotal : 0 < header.totalChunks.toNat := by
    have hmin : ¬ header.totalChunks < geckoMinFragmentChunks := fun hlt => not_bad_of_decode hdecode (.inl hlt)
    have htwo : geckoMinFragmentChunks.toNat = 2 := rfl
    rw [UInt8.lt_iff_toNat_lt] at hmin
    omega
  unfold fragment
  simp only
  split
  · exact .inl rfl
  rename_i s' henter
  refine .inr ⟨s', _, _, htotal, henter, ?_⟩
  split
  · exact .inl rfl
  rename_i e hlookup
  split
  · exact .inl rfl
  rename_i e' hstore
  refine .inr ⟨e, header, payload, e', hlookup, hstore, ?_⟩
  grind

/-- **A packet keeps the accounts.** -/
theorem Sound.receive (h : s.Sound) (order : Order) (p : Received) :
    (s.receive order p).2.Sound := by
  rcases receive_state order s p with heq | heq | ⟨s', msgId, total, htotal, henter, hstate⟩
  · rw [heq]
    exact h
  · rw [heq]
    exact h.gc order p.gcTime
  · have hs' : s'.Sound := (h.gc order p.gcTime).enter (length_evict order _ (Nat.le_refl _)) htotal henter
    rcases hstate with heq | ⟨e, header, payload, e', hlookup, hstore, hstate⟩
    · rw [heq]
      exact hs'
    · have hkey := mem_reassembly_iff.mpr ⟨e, hlookup⟩
      obtain ⟨hreceived, htotal', hslots⟩ := store_counts (hs'.entries _ e hlookup) hstore
      rcases hstate with ⟨hless, heq⟩ | heq
      · rw [heq]
        exact hs'.put hkey ⟨hreceived, hless, by rw [htotal']; exact hslots⟩
      · rw [heq, dropEntry_put hkey]
        exact hs'.dropEntry _

/-- **A packet adds at most one entry**, for its own source. -/
theorem entriesOf_receive_le (s : GeckoReceiver) (p : Received) (source : String) :
    (s.receive order p).2.entriesOf source ≤ s.entriesOf source + if p.source = source then 1 else 0 := by
  have hgc := entriesOf_gc_le order p.gcTime s source
  rcases receive_state order s p with heq | heq | ⟨s', msgId, total, -, henter, hstate⟩
  · rw [heq]
    omega
  · rw [heq]
    omega
  · have hs' : s'.entriesOf source ≤ s.entriesOf source + if p.source = source then 1 else 0 := by
      unfold enter at henter
      grind [entriesOf_insert]
    rcases hstate with heq | ⟨e, header, payload, e', hlookup, -, hstate⟩
    · rw [heq]
      exact hs'
    · have hkey := mem_reassembly_iff.mpr ⟨e, hlookup⟩
      rcases hstate with ⟨-, heq⟩ | heq
      · rw [heq]
        exact Nat.le_trans (Nat.le_of_eq ((keys_put hkey).countP_eq _)) hs'
      · rw [heq, dropEntry_put hkey]
        exact Nat.le_trans (entriesOf_dropEntry_le s' _ source) hs'

/-! ## Runs -/

/-- The state behind some packets; the order of the table may change each time. -/
def after (s : GeckoReceiver) (packets : List (Order × Received)) : GeckoReceiver :=
  packets.foldl (fun s p => (s.receive p.1 p.2).2) s

theorem Sound.after (packets : List (Order × Received)) :
    ∀ {s : GeckoReceiver}, s.Sound → (s.after packets).Sound := by
  induction packets with
  | nil => exact id
  | cons p packets ih => exact fun h => ih (h.receive p.1 p.2)

theorem entriesOf_after_le (packets : List (Order × Received)) (source : String) :
    ∀ s : GeckoReceiver,
    (s.after packets).entriesOf source ≤ s.entriesOf source + packets.countP (·.2.source = source) := by
  induction packets with
  | nil => exact fun s => Nat.le_refl _
  | cons p packets ih =>
    intro s
    have hstep := entriesOf_receive_le p.1 s p.2 source
    have hrest := ih (s.receive p.1 p.2).2
    rw [countP_cons]
    simp only [decide_eq_true_eq]
    show ((s.receive p.1 p.2).2.after packets).entriesOf source ≤ _
    omega

/-- A fragment of a new message is dropped because of the limit of its source. -/
def Refused (order : Order) (s : GeckoReceiver) (p : Received) (msgId total : UInt8) : Prop :=
  (s.gcReassembly order p.gcTime).enter p msgId total = none

theorem refused_iff (h : s.Sound) (order : Order) (p : Received) (msgId total : UInt8) :
    Refused order s p msgId total ↔ ⟨p.source, msgId⟩ ∉ (s.gcReassembly order p.gcTime).reassembly ∧
        (s.gcReassembly order p.gcTime).entriesOf p.source = geckoMaxPerSource := by
  have hgc := h.gc order p.gcTime
  have hcount := hgc.counted p.source
  have hle := hgc.perSource p.source
  unfold Refused enter
  grind

/-- **The accounts of the table** behind any packets. A source is refused for the limit
only if it has as many entries itself, and never before it has sent as many packets. -/
theorem accounting_invariant (packets : List (Order × Received)) (order : Order) (p : Received) (msgId total : UInt8) :
    (new.after packets).Sound ∧ (Refused order (new.after packets) p msgId total ↔
        ⟨p.source, msgId⟩ ∉ ((new.after packets).gcReassembly order p.gcTime).reassembly ∧
          ((new.after packets).gcReassembly order p.gcTime).entriesOf p.source = geckoMaxPerSource) ∧
      (Refused order (new.after packets) p msgId total →
        geckoMaxPerSource ≤ packets.countP (·.2.source = p.source)) := by
  have hsound := sound_new.after packets
  have hiff := refused_iff hsound order p msgId total
  refine ⟨hsound, hiff, fun hrefused => ?_⟩
  have hfull := (hiff.mp hrefused).2
  have hgc := entriesOf_gc_le order p.gcTime (new.after packets) p.source
  have hrun : (new.after packets).entriesOf p.source ≤ 0 + packets.countP (·.2.source = p.source) :=
    entriesOf_after_le packets p.source new
  omega

end GeckoReceiver
end Wrongsv.L2.Gecko
