import IPv8Plus.Lib.Run
import IPv8Plus.Portal.Dhcp

/-!
# Who has which address

Client numbers are given out one after the other and records are never deleted, so the table holds all numbers below the
counter. The last byte of `tun_ip` is the number as long as that is at most 254; number 255 has the suffix of 254, and 257
that of the server.
-/

namespace IPv8Plus.Portal
open Lib

/-! ## Numbers and addresses -/

lemma tunSuffix_eq {n : Nat} (hlow : 2 ≤ n) (hhigh : n ≤ 254) : tunSuffix n = n := by
  have hand : n &&& 0xFF = n := by
    rw [show 0xFF = 2 ^ 8 - 1 from rfl, Nat.and_two_pow_sub_one_eq_mod, Nat.mod_eq_of_lt (by omega)]
  rw [tunSuffix, hand]
  exact if_neg (by omega)

lemma tunIp_inj {n m : Nat} (h : tunIp n = tunIp m) : tunSuffix n = tunSuffix m :=
  decimal_injective (List.append_cancel_left h)

lemma tunIp_ne_server {n : Nat} (hlow : 2 ≤ n) (hhigh : n ≤ 254) : tunIp n ≠ serverTunIp := by
  intro h
  have hone : serverTunIp = text "100.64.0." ++ decimal 1 := by decide +kernel
  rw [hone] at h
  have hsuffix := decimal_injective (List.append_cancel_left h)
  rw [tunSuffix_eq hlow hhigh] at hsuffix
  omega

/-- The canonical address shows the low byte of the number. -/
lemma wire_inj {b b' : Arr UInt8 32} {n m : Nat} (h : wire b.val n = wire b'.val m) : n % 256 = m % 256 := by
  have hat : ∀ (b : Arr UInt8 32) k, (wire b.val k)[9]? = some (UInt8.ofNat (k &&& 0xFF)) := by
    rintro ⟨b, hb⟩ k
    match b, hb with
    | _ :: _ :: _ :: _ :: _, _ => rfl
  have hbyte := (hat b n).symm.trans ((congrArg (·[9]?) h).trans (hat b' m))
  have hnat := congrArg UInt8.toNat (Option.some.inj hbyte)
  rw [UInt8.toNat_ofNat', UInt8.toNat_ofNat', show 0xFF = 2 ^ 8 - 1 from rfl, Nat.and_two_pow_sub_one_eq_mod,
    Nat.and_two_pow_sub_one_eq_mod, Nat.mod_mod, Nat.mod_mod] at hnat
  exact hnat

lemma ipv8Canonical_inj {w w' : Bytes} (h : ipv8Canonical w = ipv8Canonical w') : w = w' := by
  rw [← Codec.unhex_hex w, ← Codec.unhex_hex w']
  exact congrArg Codec.unhex h

/-! ## The claims on a table -/

namespace Dhcp

variable (sha256 : Bytes → Arr UInt8 32) (E : TextEq)

/-- Records of different clients have different addresses, and none has that of the server. -/
structure Unique (s : Dhcp) : Prop where
  tun : ∀ (n n' : Nat) (r r' : Record), s.allocations[n]? = some r → s.allocations[n']? = some r' →
    E.eq r.clientIp r'.clientIp = false → r.tunIp ≠ r'.tunIp
  canonical : ∀ (n n' : Nat) (r r' : Record), s.allocations[n]? = some r → s.allocations[n']? = some r' →
    E.eq r.clientIp r'.clientIp = false → r.ipv8Canonical ≠ r'.ipv8Canonical
  server : ∀ (n : Nat) (r : Record), s.allocations[n]? = some r → r.tunIp ≠ serverTunIp

/-- A client that has a record still has one, with the same addresses. -/
def Keeps (s s' : Dhcp) : Prop :=
  ∀ (n : Nat) (r : Record), s.allocations[n]? = some r →
    (∃ (n' : Nat) (r' : Record), s'.allocations[n']? = some r' ∧ E.eq r.clientIp r'.clientIp = true) ∧
      ∀ (n' : Nat) (r' : Record), s'.allocations[n']? = some r' → E.eq r.clientIp r'.clientIp = true →
        r'.tunIp = r.tunIp ∧ r'.ipv8Canonical = r.ipv8Canonical

/-- A new record is made while the counter is at most 254, and no client without an address of its own is there when the
script starts again. -/
def Fits (s : Dhcp) : DhcpCall → Prop
  | .allocate _ clientIp _ => s.existing E clientIp = [] → s.nextClient ≤ 254
  | .register _ clientIp _ _ _ _ _ => s.existing E clientIp = [] → s.nextClient ≤ 254
  | .release _ _ => True
  | .save => True
  | .restart _ => ∀ e ∈ s.allocations.toList, e.2.clientIp ≠ []

instance (s : Dhcp) (c : DhcpCall) : Decidable (s.Fits E c) := by
  cases c <;> unfold Fits <;> infer_instance

end Dhcp

/-- What a client is known by. -/
def Record.ident (r : Record) : Bytes × Bytes × Bytes := (r.clientIp, r.tunIp, r.ipv8Canonical)

namespace Dhcp

variable (sha256 : Bytes → Arr UInt8 32) (E : TextEq)

/-- The table holds the numbers from 2 up to the counter, and the file has the same clients. -/
structure Inv (s : Dhcp) : Prop where
  low : 2 ≤ s.nextClient
  high : s.nextClient ≤ 255
  mem : ∀ n, (s.allocations[n]?).isSome ↔ 2 ≤ n ∧ n < s.nextClient
  ident : ∀ (n : Nat) (r : Record), s.allocations[n]? = some r →
    r.tunIp = tunIp n ∧ r.ipv8Canonical = Portal.ipv8Canonical (wire (sha256 r.clientIp).val n)
  clients : ∀ (n n' : Nat) (r r' : Record), s.allocations[n]? = some r → s.allocations[n']? = some r' →
    E.eq r.clientIp r'.clientIp = true → n = n'
  disk : match s.disk with
    | none => s.nextClient = 2
    | some snap => snap.nextClient = s.nextClient ∧
      ∀ n : Nat, (snap.records[n]?).map Record.ident = (s.allocations[n]?).map Record.ident

section
variable {sha256 : Bytes → Arr UInt8 32} {E : TextEq} {s s' : Dhcp} {now clientIp : Bytes}

lemma mem_existing {e : Nat × Record} :
    e ∈ s.existing E clientIp ↔ s.allocations[e.1]? = some e.2 ∧ E.eq e.2.clientIp clientIp = true := by
  rw [existing, List.mem_filter]
  exact and_congr_left' Std.ExtTreeMap.mem_toList_iff_getElem?_eq_some

lemma Inv.bounds (h : s.Inv sha256 E) {n : Nat} {r : Record} (hr : s.allocations[n]? = some r) :
    2 ≤ n ∧ n < s.nextClient := (h.mem n).mp (by rw [hr]; rfl)

theorem Inv.unique (h : s.Inv sha256 E) : s.Unique E := by
  have hhigh := h.high
  have hne : ∀ {n n' : Nat} {r r' : Record}, s.allocations[n]? = some r → s.allocations[n']? = some r' →
      E.eq r.clientIp r'.clientIp = false → n ≠ n' := by
    rintro n n' r r' hr hr' hdiff rfl
    rw [hr] at hr'
    cases hr'
    rw [E.equivalence.refl r.clientIp] at hdiff
    cases hdiff
  refine ⟨fun n n' r r' hr hr' hdiff heq => ?_, fun n n' r r' hr hr' hdiff heq => ?_, fun n r hr heq => ?_⟩
  · have hb := h.bounds hr
    have hb' := h.bounds hr'
    rw [(h.ident n r hr).1, (h.ident n' r' hr').1] at heq
    have hsuffix := tunIp_inj heq
    rw [tunSuffix_eq hb.1 (by omega), tunSuffix_eq hb'.1 (by omega)] at hsuffix
    exact hne hr hr' hdiff hsuffix
  · have hb := h.bounds hr
    have hb' := h.bounds hr'
    rw [(h.ident n r hr).2, (h.ident n' r' hr').2] at heq
    have hmod := wire_inj (ipv8Canonical_inj heq)
    rw [Nat.mod_eq_of_lt (by omega), Nat.mod_eq_of_lt (by omega)] at hmod
    exact hne hr hr' hdiff hmod
  · have hb := h.bounds hr
    rw [(h.ident n r hr).1] at heq
    exact tunIp_ne_server hb.1 (by omega) heq

/-- Nothing of what the clients are known by changes. -/
structure Same (s s' : Dhcp) : Prop where
  next : s'.nextClient = s.nextClient
  idents : ∀ n : Nat, (s'.allocations[n]?).map Record.ident = (s.allocations[n]?).map Record.ident
  disk : s'.disk = s.disk ∨ s'.disk = some ⟨s'.nextClient, s'.allocations⟩

/-- The record of the other table. -/
lemma Same.back (h : Same s s') {n : Nat} {r' : Record} (hr : s'.allocations[n]? = some r') :
    ∃ r, s.allocations[n]? = some r ∧ r.ident = r'.ident := by
  have hid := h.idents n
  rw [hr, Option.map_some] at hid
  exact Option.map_eq_some_iff.mp hid.symm

lemma Same.forth (h : Same s s') {n : Nat} {r : Record} (hr : s.allocations[n]? = some r) :
    ∃ r', s'.allocations[n]? = some r' ∧ r'.ident = r.ident := by
  have hid := h.idents n
  rw [hr, Option.map_some] at hid
  exact Option.map_eq_some_iff.mp hid

lemma Inv.same (h : s.Inv sha256 E) (hs : Same s s') : s'.Inv sha256 E where
  low := hs.next ▸ h.low
  high := hs.next ▸ h.high
  mem := by
    intro n
    rw [hs.next, ← h.mem n, ← Option.isSome_map (f := Record.ident), hs.idents n, Option.isSome_map]
  ident := by
    intro n r' hr'
    obtain ⟨r, hr, hid⟩ := hs.back hr'
    simp only [Record.ident, Prod.mk.injEq] at hid
    rw [← hid.1, ← hid.2.1, ← hid.2.2]
    exact h.ident n r hr
  clients := by
    intro n n' r r' hr hr' heq
    obtain ⟨a, ha, hid⟩ := hs.back hr
    obtain ⟨a', ha', hid'⟩ := hs.back hr'
    simp only [Record.ident, Prod.mk.injEq] at hid hid'
    rw [← hid.1, ← hid'.1] at heq
    exact h.clients n n' a a' ha ha' heq
  disk := by
    -- the file is either left as it was or written from the new table
    rcases hs.disk with e | e
    · have hdisk := h.disk
      rw [e, hs.next]
      cases hd : s.disk with
      | none =>
        rw [hd] at hdisk
        exact hdisk
      | some snap =>
        rw [hd] at hdisk
        exact ⟨hdisk.1, fun n => (hdisk.2 n).trans (hs.idents n).symm⟩
    · rw [e]
      exact ⟨rfl, fun _ => rfl⟩

lemma Inv.keeps (h : s.Inv sha256 E) (hs : Same s s') : Keeps E s s' := by
  intro n r hr
  obtain ⟨r', hr', hid⟩ := hs.forth hr
  simp only [Record.ident, Prod.mk.injEq] at hid
  refine ⟨⟨n, r', hr', hid.1 ▸ E.equivalence.refl r.clientIp⟩, fun n' a' ha' heq => ?_⟩
  have hn := (h.same hs).clients n n' r' a' hr' ha' (hid.1.symm ▸ heq)
  rw [← hn, hr'] at ha'
  cases ha'
  exact hid.2

/-! ## What the calls change -/

/-- A record for a client that had none. -/
structure Grants (sha256 : Bytes → Arr UInt8 32) (s s' : Dhcp) (clientIp : Bytes) : Prop where
  next : s'.nextClient = s.nextClient + 1
  disk : s'.disk = some ⟨s'.nextClient, s'.allocations⟩
  table : ∃ r : Record, s'.allocations = s.allocations.insert s.nextClient r ∧
    r.ident = (clientIp, tunIp s.nextClient, Portal.ipv8Canonical (wire (sha256 clientIp).val s.nextClient))

/-- The table with the new record. -/
lemma Grants.getElem? (hg : Grants sha256 s s' clientIp) : ∃ r : Record,
    r.ident = (clientIp, tunIp s.nextClient, Portal.ipv8Canonical (wire (sha256 clientIp).val s.nextClient)) ∧
      ∀ n : Nat, s'.allocations[n]? = if n = s.nextClient then some r else s.allocations[n]? := by
  obtain ⟨r, htable, hid⟩ := hg.table
  refine ⟨r, hid, fun n => ?_⟩
  rw [htable, Std.ExtTreeMap.getElem?_insert]
  simp only [Std.compare_eq_iff_eq, eq_comm (a := s.nextClient)]

/-- No record is that of a client that has none. -/
lemma eq_false_of_existing (hnew : s.existing E clientIp = []) {n : Nat} {r : Record} (hr : s.allocations[n]? = some r) :
    E.eq r.clientIp clientIp = false := by
  rw [← Bool.not_eq_true]
  intro heq
  have hmem : (n, r) ∈ s.existing E clientIp := mem_existing.mpr ⟨hr, heq⟩
  rw [hnew] at hmem
  cases hmem

lemma Inv.grant (h : s.Inv sha256 E) (hg : Grants sha256 s s' clientIp) (hnew : s.existing E clientIp = [])
    (hle : s.nextClient ≤ 254) : s'.Inv sha256 E ∧ Keeps E s s' := by
  have hlow := h.low
  obtain ⟨r, hid, hget⟩ := hg.getElem?
  simp only [Record.ident, Prod.mk.injEq] at hid
  have hold : ∀ {n : Nat} {a : Record}, s.allocations[n]? = some a → s'.allocations[n]? = some a := by
    intro n a ha
    rw [hget, if_neg (h.bounds ha).2.ne, ha]
  -- the new record is the only one of its client, since the client had none
  have hclients : ∀ (n n' : Nat) (a a' : Record), s'.allocations[n]? = some a → s'.allocations[n']? = some a' →
      E.eq a.clientIp a'.clientIp = true → n = n' := by
    intro n n' a a' ha ha' heq
    rw [hget] at ha ha'
    split at ha
    · next hn =>
      cases ha
      split at ha'
      · next hn' => rw [hn, hn']
      · have hdiff := eq_false_of_existing hnew ha'
        rw [hid.1] at heq
        rw [E.equivalence.symm heq] at hdiff
        cases hdiff
    · split at ha'
      · cases ha'
        have hdiff := eq_false_of_existing hnew ha
        rw [← hid.1, heq] at hdiff
        cases hdiff
      · exact h.clients n n' a a' ha ha' heq
  refine ⟨⟨?_, ?_, ?_, ?_, hclients, ?_⟩, ?_⟩
  · rw [hg.next]
    omega
  · rw [hg.next]
    omega
  · intro n
    rw [hget, hg.next]
    split
    · next hn => exact iff_of_true rfl (by omega)
    · rw [h.mem n]
      omega
  · intro n a ha
    rw [hget] at ha
    split at ha
    · next hn =>
      cases ha
      rw [hn, hid.1, hid.2.1, hid.2.2]
      exact ⟨rfl, rfl⟩
    · exact h.ident n a ha
  · rw [hg.disk]
    exact ⟨rfl, fun _ => rfl⟩
  · intro n a ha
    refine ⟨⟨n, a, hold ha, E.equivalence.refl _⟩, fun n' a' ha' heq => ?_⟩
    cases hclients n n' a a' (hold ha) ha' heq
    rw [hold ha] at ha'
    cases ha'
    exact ⟨rfl, rfl⟩

/-- Number 255 goes with the suffix of 254. -/
lemma Inv.not_unique (h : s.Inv sha256 E) (hg : Grants sha256 s s' clientIp) (hnew : s.existing E clientIp = [])
    (hfull : s.nextClient = 255) : ¬ s'.Unique E := by
  intro hunique
  obtain ⟨r, hid, hget⟩ := hg.getElem?
  simp only [Record.ident, Prod.mk.injEq] at hid
  obtain ⟨a, ha⟩ := Option.isSome_iff_exists.mp ((h.mem 254).mpr (by omega))
  have ha' : s'.allocations[254]? = some a := by
    rw [hget, if_neg (by omega), ha]
  have hr : s'.allocations[255]? = some r := by rw [hget, if_pos hfull.symm]
  apply hunique.tun 254 255 a r ha' hr
  · rw [hid.1]
    exact eq_false_of_existing hnew ha
  · rw [(h.ident 254 a ha).1, hid.2.1, hfull]
    rfl

lemma grants_allocate (hnew : s.existing E clientIp = []) (hsmall : s.nextClient < 2 ^ 16) (clientName : Bytes) :
    Grants sha256 s (s.allocate sha256 E now clientIp clientName).1 clientIp := by
  unfold allocate
  rw [hnew]
  dsimp only
  rw [if_neg (Nat.not_le.mpr hsmall)]
  exact ⟨rfl, rfl, _, rfl, rfl⟩

lemma grants_register (hnew : s.existing E clientIp = []) (ipv8Addr hostname fingerprint : Bytes) (visaExists caExists : Bool) :
    Grants sha256 s (s.register sha256 E now clientIp ipv8Addr hostname fingerprint visaExists caExists).1 clientIp := by
  unfold register
  rw [hnew]
  exact ⟨rfl, rfl, _, rfl, rfl⟩

lemma Same.refl (s : Dhcp) : Same s s := ⟨rfl, fun _ => rfl, .inl rfl⟩

lemma Same.save (s : Dhcp) : Same s s.saveAllocations := ⟨rfl, fun _ => rfl, .inr rfl⟩

/-- A record is replaced by one of the same client. -/
lemma idents_insert {n : Nat} {r r' : Record} (hr : s.allocations[n]? = some r) (hid : r'.ident = r.ident) (m : Nat) :
    ((s.allocations.insert n r')[m]?).map Record.ident = (s.allocations[m]?).map Record.ident := by
  rw [Std.ExtTreeMap.getElem?_insert]
  split
  · next heq =>
    cases Std.compare_eq_iff_eq.mp heq
    rw [hr, Option.map_some, Option.map_some, hid]
  · rfl

lemma same_allocate (hold : s.existing E clientIp ≠ []) (clientName : Bytes) :
    Same s (s.allocate sha256 E now clientIp clientName).1 := by
  unfold allocate
  split
  · exact .refl s
  · exact .refl s
  · next hnew => exact absurd hnew hold

lemma same_register (hold : s.existing E clientIp ≠ []) (ipv8Addr hostname fingerprint : Bytes) (visaExists caExists : Bool) :
    Same s (s.register sha256 E now clientIp ipv8Addr hostname fingerprint visaExists caExists).1 := by
  unfold register
  split
  · next n r hone =>
    have hr := (mem_existing.mp (hone ▸ List.mem_singleton_self (n, r))).1
    exact ⟨rfl, idents_insert hr rfl, .inl rfl⟩
  · exact .refl s
  · next hnew => exact absurd hnew hold

lemma same_release (s : Dhcp) : Same s (s.release E now clientIp).1 := by
  unfold release
  split
  · next n r hone =>
    have hr := (mem_existing.mp (hone ▸ List.mem_singleton_self (n, r))).1
    exact ⟨rfl, idents_insert hr rfl, .inr rfl⟩
  · exact .refl s
  · exact .refl s

/-- What a list of records is loaded to. -/
lemma getElem?_foldl_load (now : Bytes) (l : List (Nat × Record)) {m : Allocations} (hl : l.Pairwise fun e e' => e.1 ≠ e'.1)
    (hm : ∀ e ∈ l, m[e.1]? = none) {n : Nat} {b : Record} : (l.foldl (loadRecord now) m)[n]? = some b ↔
      m[n]? = some b ∨ ∃ r, (n, r) ∈ l ∧ r.clientIp ≠ [] ∧ n ≠ 0 ∧ b = restored now r := by
  -- no number is in the list twice, so no record is loaded over another
  induction l generalizing m with
  | nil => exact ⟨.inl, fun h => h.resolve_right fun ⟨_, hr, _⟩ => nomatch hr⟩
  | cons e l ih =>
    obtain ⟨hhead, htail⟩ := List.pairwise_cons.mp hl
    have hload : ∀ k : Nat, (loadRecord now m e)[k]? = if e.2.clientIp ≠ [] ∧ e.1 ≠ 0 ∧ k = e.1 then some (restored now e.2)
        else m[k]? := by
      intro k
      unfold loadRecord
      split
      · next hempty => exact (if_neg fun h => h.1 (List.isEmpty_iff.mp hempty)).symm
      · next hclient =>
        split
        · next hzero => exact (if_neg fun h => h.2.1 hzero).symm
        · next hzero =>
          rw [Std.ExtTreeMap.getElem?_insert]
          simp only [Std.compare_eq_iff_eq, eq_comm (a := e.1)]
          have hne : e.2.clientIp ≠ [] := fun h => hclient (List.isEmpty_iff.mpr h)
          simp only [ne_eq, hne, not_false_eq_true, hzero, true_and]
    have hrest : ∀ e' ∈ l, (loadRecord now m e)[e'.1]? = none := by
      intro e' he'
      rw [hload, if_neg fun h => hhead e' he' h.2.2.symm]
      exact hm e' (List.mem_cons_of_mem _ he')
    rw [List.foldl_cons, ih htail hrest, hload]
    have hnone := hm e List.mem_cons_self
    constructor
    · rintro (h | ⟨r, hr, hrest⟩)
      · split at h
        · next hcond =>
          cases h
          rw [hcond.2.2]
          exact .inr ⟨e.2, List.mem_cons_self, hcond.1, hcond.2.1, rfl⟩
        · exact .inl h
      · exact .inr ⟨r, List.mem_cons_of_mem _ hr, hrest⟩
    · rintro (h | ⟨r, hr, hclient, hzero, rfl⟩)
      · refine .inl ?_
        rw [if_neg]
        · exact h
        · rintro ⟨-, -, rfl⟩
          rw [hnone] at h
          cases h
      · rcases List.mem_cons.mp hr with rfl | hr
        · exact .inl (if_pos ⟨hclient, hzero, rfl⟩)
        · exact .inr ⟨r, hr, hclient, hzero, rfl⟩

/-- The table after a start with a file. -/
lemma getElem?_restart {snap : Snapshot} (hd : s.disk = some snap) {n : Nat} {b : Record} :
    (s.restart now).allocations[n]? = some b ↔
      ∃ r, snap.records[n]? = some r ∧ r.clientIp ≠ [] ∧ n ≠ 0 ∧ b = restored now r := by
  have hdistinct : snap.records.toList.Pairwise fun e e' => e.1 ≠ e'.1 :=
    snap.records.distinct_keys_toList.imp fun hne heq => hne (Std.compare_eq_iff_eq.mpr heq)
  unfold restart loadAllocations
  rw [hd]
  dsimp only
  rw [getElem?_foldl_load now _ hdistinct fun _ _ => Std.ExtTreeMap.getElem?_empty]
  simp only [Std.ExtTreeMap.getElem?_empty, Std.ExtTreeMap.mem_toList_iff_getElem?_eq_some, reduceCtorEq, false_or]

@[simp] lemma disk_restart (s : Dhcp) (now : Bytes) : (s.restart now).disk = s.disk := by
  unfold restart loadAllocations
  dsimp only
  split
  · rfl
  · rfl

/-- The file has the clients of the table. -/
lemma Inv.saved (h : s.Inv sha256 E) {n : Nat} {a : Record} (ha : s.allocations[n]? = some a) :
    ∃ snap r, s.disk = some snap ∧ snap.records[n]? = some r ∧ r.ident = a.ident := by
  have hdisk := h.disk
  have hb := h.bounds ha
  cases hd : s.disk with
  | none =>
    rw [hd] at hdisk
    omega
  | some snap =>
    rw [hd] at hdisk
    have hid := hdisk.2 n
    rw [ha, Option.map_some] at hid
    obtain ⟨r, hr, hident⟩ := Option.map_eq_some_iff.mp hid
    exact ⟨snap, r, rfl, hr, hident⟩

lemma Inv.same_restart (h : s.Inv sha256 E) (hfit : ∀ e ∈ s.allocations.toList, e.2.clientIp ≠ []) (now : Bytes) :
    Same s (s.restart now) := by
  have hlow := h.low
  have hdisk := h.disk
  refine ⟨?_, fun n => ?_, .inl (disk_restart s now)⟩
  · unfold restart loadAllocations
    cases hd : s.disk with
    | none =>
      rw [hd] at hdisk
      exact hdisk.symm
    | some snap =>
      rw [hd] at hdisk
      show (if 2 < snap.nextClient then snap.nextClient else 2) = s.nextClient
      rw [hdisk.1]
      split
      · rfl
      · omega
  · cases ha : s.allocations[n]? with
    | none =>
      rw [Option.map_none, Option.map_eq_none_iff, Option.eq_none_iff_forall_ne_some]
      intro b hb
      cases hd : s.disk with
      | none =>
        unfold restart loadAllocations at hb
        rw [hd] at hb
        exact absurd hb (by rw [Std.ExtTreeMap.getElem?_empty]; nofun)
      | some snap =>
        rw [hd] at hdisk
        obtain ⟨r, hr, -⟩ := (getElem?_restart hd).mp hb
        have hid := hdisk.2 n
        rw [ha, hr] at hid
        cases hid
    | some a =>
      -- a record of the table is in the file, and is skipped only without a client address
      obtain ⟨snap, r, hd, hr, hid⟩ := h.saved ha
      have hclient : r.clientIp ≠ [] := by
        simp only [Record.ident, Prod.mk.injEq] at hid
        rw [hid.1]
        exact hfit (n, a) (Std.ExtTreeMap.mem_toList_iff_getElem?_eq_some.mpr ha)
      have hb := h.bounds ha
      have hzero : n ≠ 0 := by omega
      rw [(getElem?_restart hd).mpr ⟨r, hr, hclient, hzero, rfl⟩]
      exact congrArg some hid

/-- A client without an address of its own is not loaded. -/
lemma Inv.not_keeps (h : s.Inv sha256 E) {e : Nat × Record} (he : e ∈ s.allocations.toList) (hempty : e.2.clientIp = [])
    (now : Bytes) : ¬ Keeps E s (s.restart now) := by
  intro hkeeps
  have ha := Std.ExtTreeMap.mem_toList_iff_getElem?_eq_some.mp he
  obtain ⟨⟨n', r', hr', heq⟩, -⟩ := hkeeps e.1 e.2 ha
  obtain ⟨snap, -, hd, -⟩ := h.saved ha
  obtain ⟨r, hr, hclient, -, rfl⟩ := (getElem?_restart hd).mp hr'
  have hdisk := h.disk
  rw [hd] at hdisk
  have hid := hdisk.2 n'
  rw [hr, Option.map_some] at hid
  obtain ⟨a', ha', hident⟩ := Option.map_eq_some_iff.mp hid.symm
  simp only [Record.ident, Prod.mk.injEq] at hident
  have heq' : E.eq e.2.clientIp a'.clientIp = true := by
    rw [hident.1]
    exact heq
  cases h.clients e.1 n' e.2 a' ha ha' heq'
  rw [ha] at ha'
  cases ha'
  rw [← hident.1] at hclient
  exact hclient hempty

/-- A call that gives out a number keeps the addresses unique exactly if the counter is low enough. -/
lemma Inv.grant_iff (h : s.Inv sha256 E) (hg : Grants sha256 s s' clientIp) (hnew : s.existing E clientIp = []) :
    s.nextClient ≤ 254 ↔ s'.Unique E ∧ Keeps E s s' := by
  constructor
  · intro hle
    obtain ⟨hinv, hkeeps⟩ := h.grant hg hnew hle
    exact ⟨hinv.unique, hkeeps⟩
  · rintro ⟨hunique, -⟩
    by_contra hgt
    have hhigh := h.high
    exact h.not_unique hg hnew (by omega) hunique

theorem Inv.step (h : s.Inv sha256 E) {c : DhcpCall} (hfit : s.Fits E c) : (s.step sha256 E c).1.Inv sha256 E := by
  have hhigh := h.high
  cases c with
  | allocate now clientIp clientName =>
    by_cases hnew : s.existing E clientIp = []
    · exact (h.grant (grants_allocate hnew (by omega) clientName) hnew (hfit hnew)).1
    · exact h.same (same_allocate hnew clientName)
  | register now clientIp ipv8Addr hostname fingerprint visaExists caExists =>
    by_cases hnew : s.existing E clientIp = []
    · exact (h.grant (grants_register hnew _ _ _ _ _) hnew (hfit hnew)).1
    · exact h.same (same_register hnew _ _ _ _ _)
  | release now clientIp => exact h.same (same_release s)
  | save => exact h.same (.save s)
  | restart now => exact h.same (h.same_restart hfit now)

theorem Inv.fits_iff (h : s.Inv sha256 E) (c : DhcpCall) :
    s.Fits E c ↔ (s.step sha256 E c).1.Unique E ∧ Keeps E s (s.step sha256 E c).1 := by
  have hhigh := h.high
  have hsame : ∀ {s'}, Same s s' → s'.Unique E ∧ Keeps E s s' := fun hs => ⟨(h.same hs).unique, h.keeps hs⟩
  cases c with
  | allocate now clientIp clientName =>
    by_cases hnew : s.existing E clientIp = []
    · rw [Fits, forall_prop_of_true hnew]
      exact h.grant_iff (grants_allocate hnew (by omega) clientName) hnew
    · exact iff_of_true (fun h' => absurd h' hnew) (hsame (same_allocate hnew clientName))
  | register now clientIp ipv8Addr hostname fingerprint visaExists caExists =>
    by_cases hnew : s.existing E clientIp = []
    · rw [Fits, forall_prop_of_true hnew]
      exact h.grant_iff (grants_register hnew _ _ _ _ _) hnew
    · exact iff_of_true (fun h' => absurd h' hnew) (hsame (same_register hnew _ _ _ _ _))
  | release now clientIp => exact iff_of_true trivial (hsame (same_release s))
  | save => exact iff_of_true trivial (hsame (.save s))
  | restart now =>
    constructor
    · exact fun hfit => hsame (h.same_restart hfit now)
    · rintro ⟨-, hkeeps⟩ e he hempty
      exact h.not_keeps he hempty now hkeeps

lemma inv_start : Inv sha256 E {} where
  low := le_rfl
  high := by decide
  mem := by
    intro n
    rw [Std.ExtTreeMap.getElem?_empty]
    exact iff_of_false nofun fun hn => Nat.not_lt.mpr hn.1 hn.2
  ident := by
    intro n r hr
    rw [Std.ExtTreeMap.getElem?_empty] at hr
    cases hr
  clients := by
    intro n n' r r' hr
    rw [Std.ExtTreeMap.getElem?_empty] at hr
    cases hr
  disk := rfl

end

end Dhcp

open Dhcp

/-- In every run of the manager, and whatever SHA-256 and `-eq` are, the addresses of different clients differ in every state,
none is that of the server, and every call keeps the addresses of the clients, if and only if records are made while the
counter is at most 254 and the script starts again only when no client's address is the empty text. -/
theorem allocation_unique_iff (sha256 : Bytes → Arr UInt8 32) (E : TextEq) (calls : List DhcpCall) :
    ((∀ pre, pre <+: calls → (run (Dhcp.step sha256 E) {} pre).1.Unique E) ∧
        Along (Dhcp.step sha256 E) (fun s c => Keeps E s (s.step sha256 E c).1) {} calls) ↔
      Along (Dhcp.step sha256 E) (Fits E) {} calls := by
  have hstart : Inv sha256 E {} := inv_start
  rw [forall_prefix_iff, and_iff_right hstart.unique, ← along_and]
  symm
  apply along_congr (I := Inv sha256 E) (D := fun _ _ => True) (along_of_forall fun _ _ => trivial)
  · exact fun s c hs _ hfit => hs.step hfit
  · exact fun s c hs _ => hs.fits_iff c
  · exact hstart

/-- `-eq` on texts without letters. -/
def sameText : TextEq where
  eq := fun a b => a = b
  equivalence := by
    simp only [decide_eq_true_eq]
    exact eq_equivalence

def sampleHash : Bytes → Arr UInt8 32 := fun b => ⟨(b ++ List.replicate 32 0).take 32, by simp⟩

def address (i : Nat) : Bytes := text "10.0.0." ++ decimal i

/-- So many different clients come one after the other. -/
def clients (n : Nat) : List DhcpCall := (List.range n).map fun i => .allocate [] (address i) []

lemma clients_succ (n : Nat) : clients (n + 1) = clients n ++ [.allocate [] (address n) []] := by
  rw [clients, List.range_succ, List.map_append]
  rfl

/-- A client that comes has no record. -/
lemma existing_address {s : Dhcp} {n : Nat} (h : ∀ (k : Nat) (r : Record), s.allocations[k]? = some r → ∃ i < n, r.clientIp = address i) :
    s.existing sameText (address n) = [] := by
  rw [List.eq_nil_iff_forall_not_mem]
  intro e he
  obtain ⟨hr, heq⟩ := mem_existing.mp he
  obtain ⟨i, hi, hclient⟩ := h e.1 e.2 hr
  rw [hclient] at heq
  exact hi.ne (decimal_injective (List.append_cancel_left (of_decide_eq_true heq)))

lemma run_clients {n : Nat} (hn : n ≤ 253) :
    let s := (run (Dhcp.step sampleHash sameText) {} (clients n)).1
    s.Inv sampleHash sameText ∧ s.nextClient = n + 2 ∧
      ∀ (k : Nat) (r : Record), s.allocations[k]? = some r → ∃ i < n, r.clientIp = address i := by
  induction n with
  | zero => exact ⟨inv_start, rfl, fun k r hr => nomatch hr.symm.trans Std.ExtTreeMap.getElem?_empty⟩
  | succ n ih =>
    obtain ⟨hinv, hnext, hclients⟩ := ih (by omega)
    rw [clients_succ, run_append]
    generalize (run (Dhcp.step sampleHash sameText) {} (clients n)).1 = s at hinv hnext hclients
    have hnew := existing_address hclients
    have hg : Grants sampleHash s (s.step sampleHash sameText (.allocate [] (address n) [])).1 (address n) :=
      grants_allocate hnew (by omega) []
    refine ⟨(hinv.grant hg hnew (by omega)).1, hg.next.trans (by omega), fun k r hr => ?_⟩
    obtain ⟨a, hid, hget⟩ := hg.getElem?
    simp only [Record.ident, Prod.mk.injEq] at hid
    change (s.step sampleHash sameText (.allocate [] (address n) [])).1.allocations[k]? = some r at hr
    rw [hget] at hr
    split at hr
    · cases hr
      exact ⟨n, Nat.lt_succ_self n, hid.1⟩
    · obtain ⟨i, hi, hclient⟩ := hclients k r hr
      exact ⟨i, Nat.lt_succ_of_lt hi, hclient⟩

lemma not_unique_clients {n : Nat} (hn : n = 253) :
    ¬ (run (Dhcp.step sampleHash sameText) {} (clients (n + 1))).1.Unique sameText := by
  have hlast := run_clients hn.le
  rw [clients_succ, run_append]
  generalize (run (Dhcp.step sampleHash sameText) {} (clients n)).1 = s at hlast
  obtain ⟨hinv, hnext, hclients⟩ := hlast
  have hnew := existing_address hclients
  exact hinv.not_unique (grants_allocate hnew (by omega) []) hnew (by omega)

/-- The clients with the numbers 254 and 255 get the same `tun_ip`. -/
theorem tunIp_shared : ¬ (run (Dhcp.step sampleHash sameText) {} (clients (253 + 1))).1.Unique sameText := not_unique_clients rfl

end IPv8Plus.Portal
