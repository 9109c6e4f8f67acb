import AndroidX86Tv.Lib.Memory
import AndroidX86Tv.Dhcp.DefaultRoute
import Mathlib.Algebra.Ring.Nat
import Mathlib.Data.List.Induction

/-!
# The attributes of a netlink request (client/netlink.h)

`addRouterAttribute` writes behind the length that the request has so far, brought to
a multiple of four, and makes the length cover what it wrote.

## Implementation notes

A request is given by its bytes: `hdr` (16 of them, the length first), `msg` of any
size, and the 256 bytes of `buf`.
-/

namespace AndroidX86Tv.Dhcp

open ByteMemory EventHistory

/-- `NLMSG_ALIGN`. -/
def nlmsgAlign (len : UInt32) : UInt32 := (len + 3) &&& ~~~3

/-- `RTA_ALIGN`. -/
def rtaAlign (len : UInt16) : UInt32 := (len.toUInt32 + 3) &&& ~~~3

def sizeofNlmsghdr : Nat := 16
def sizeofRtattr : Nat := 4
def sizeofBuf : Nat := 256

/-- `offsetof(Request, buf)`. -/
def offsetofBuf (sizeofMsg : Nat) : Nat := sizeofNlmsghdr + sizeofMsg

/-- `r.hdr.nlmsg_len`. -/
def nlmsgLen (r : Memory) : UInt32 := load32 r 0

/-- Where `addRouterAttribute` puts the attribute, `r.buf + offset`. -/
def attrPlace (sizeofMsg : Nat) (r : Memory) : Nat :=
  let offset := (nlmsgAlign (nlmsgLen r)).toUInt64 - UInt64.ofNat (offsetofBuf sizeofMsg)
  (UInt64.ofNat (offsetofBuf sizeofMsg) + offset).toNat

def addRouterAttribute (sizeofMsg : Nat) (r : Memory) (type : Int32) (data : List UInt8) :
    Memory :=
  let attr := attrPlace sizeofMsg r
  let r := store r (attr + 2) (bytes16 type.toUInt32.toUInt16)
  let r := store r attr (bytes16 (UInt16.ofNat (sizeofRtattr + data.length)))
  let r := store r (attr + sizeofRtattr) data
  store r 0 (bytes32 (nlmsgAlign (nlmsgLen r) + rtaAlign (load16 r attr)))

/-- An attribute, as it is handed over. -/
structure RtAttr where
  type : UInt16
  data : List UInt8
  deriving DecidableEq

/-- The attributes one after the other. -/
def addRouterAttributes (sizeofMsg : Nat) : Memory → List RtAttr → Memory :=
  run fun r a => addRouterAttribute sizeofMsg r a.type.toUInt32.toInt32 a.data

/-- `n` brought to a multiple of four. -/
def align4 (n : Nat) : Nat := (n + 3) / 4 * 4

theorem le_align4 (n : Nat) : n ≤ align4 n := by
  rw [align4]
  omega

theorem align4_add (n k : Nat) : align4 (align4 n + align4 k) = align4 n + align4 k := by
  simp only [align4]
  omega

theorem and_not_three {n : Nat} (h : n < 2 ^ 32) : n &&& 4294967292 = n / 4 * 4 := by
  apply Nat.eq_of_testBit_eq
  intro i
  -- the mask is thirty ones above two zeros
  rw [show (4294967292 : Nat) = (2 ^ 30 - 1) * 2 ^ 2 by decide, show n / 4 * 4 = n / 2 ^ 2 * 2 ^ 2
    by rfl, Nat.testBit_and, Nat.testBit_mul_two_pow, Nat.testBit_mul_two_pow,
    Nat.testBit_two_pow_sub_one, Nat.testBit_div_two_pow]
  by_cases hlow : 2 ≤ i
  · by_cases hhigh : i - 2 < 30
    · simp [hlow, hhigh]
    · have hzero : n.testBit i = false :=
        Nat.testBit_lt_two_pow (Nat.lt_of_lt_of_le h (Nat.pow_le_pow_right (by decide) (by omega)))
      simp [hlow, hzero]
  · simp [hlow]

theorem nlmsgAlign_toNat {len : UInt32} (h : align4 len.toNat < 2 ^ 32) :
    (nlmsgAlign len).toNat = align4 len.toNat := by
  have hlt : len.toNat + 3 < 2 ^ 32 := by
    rw [align4] at h
    omega
  have hsum : (len + 3).toNat = len.toNat + 3 := by
    rw [UInt32.toNat_add]
    exact Nat.mod_eq_of_lt hlt
  rw [nlmsgAlign, UInt32.toNat_and, hsum]
  exact and_not_three hlt

theorem rtaAlign_toNat (len : UInt16) : (rtaAlign len).toNat = align4 len.toNat := by
  have hlt := len.toNat_lt
  have h : (nlmsgAlign len.toUInt32).toNat = align4 len.toUInt32.toNat :=
    nlmsgAlign_toNat (by rw [UInt16.toNat_toUInt32, align4]; omega)
  rwa [UInt16.toNat_toUInt32] at h

theorem le_rtaAlign (len : UInt16) : len.toNat ≤ (rtaAlign len).toNat := by
  rw [rtaAlign_toNat]
  exact le_align4 _

/-- The attributes that stand from `p` to `stop`, by the macros `RTA_OK` and `RTA_NEXT`. -/
def walkAttributes (r : Memory) (p stop : Nat) : List RtAttr :=
  if p + sizeofRtattr ≤ stop ∧ sizeofRtattr ≤ (load16 r p).toNat ∧
      p + (load16 r p).toNat ≤ stop then
    ⟨load16 r (p + 2), bytesAt r (p + sizeofRtattr) ((load16 r p).toNat - sizeofRtattr)⟩ ::
      walkAttributes r (p + (rtaAlign (load16 r p)).toNat) stop
  else []
termination_by stop - p
decreasing_by
  have halign := le_rtaAlign (load16 r p)
  simp only [sizeofRtattr] at *
  omega

theorem attrPlace_eq (sizeofMsg : Nat) {r : Memory} (h : align4 (nlmsgLen r).toNat < 2 ^ 32) :
    attrPlace sizeofMsg r = align4 (nlmsgLen r).toNat := by
  simp only [attrPlace]
  rw [UInt64.add_comm, UInt64.sub_add_cancel, UInt32.toNat_toUInt64, nlmsgAlign_toNat h]

namespace RtAttr

/-- `rta_len`. -/
def size (a : RtAttr) : Nat := sizeofRtattr + a.data.length

/-- The attribute with its header. -/
def bytes (a : RtAttr) : List UInt8 := bytes16 (UInt16.ofNat a.size) ++ bytes16 a.type ++ a.data

@[simp] theorem length_bytes (a : RtAttr) : a.bytes.length = a.size := by
  simp only [bytes, size, sizeofRtattr, List.length_append, bytes16_length]

theorem size_toNat {a : RtAttr} (h : a.size < 2 ^ 16) : (UInt16.ofNat a.size).toNat = a.size :=
  UInt16.toNat_ofNat_of_lt h

end RtAttr

/-- The room that the attributes take. -/
def extent : List RtAttr → Nat
  | [] => 0
  | a :: attrs => align4 a.size + extent attrs

/-- The attributes stand one behind the other from `p` on. -/
def Lies (r : Memory) : Nat → List RtAttr → Prop
  | _, [] => True
  | p, a :: attrs => Holds r p a.bytes ∧ Lies r (p + align4 a.size) attrs

variable {sizeofMsg p : Nat} {r r' : Memory} {a : RtAttr} {attrs : List RtAttr}

theorem extent_append (attrs others : List RtAttr) :
    extent (attrs ++ others) = extent attrs + extent others := by
  induction attrs with
  | nil => exact (Nat.zero_add _).symm
  | cons a attrs ih => rw [List.cons_append, extent, extent, ih, Nat.add_assoc]

theorem align4_extent (n : Nat) (attrs : List RtAttr) :
    align4 (align4 n + extent attrs) = align4 n + extent attrs := by
  induction attrs generalizing n with
  | nil => exact align4_add n 0
  | cons a attrs ih =>
      have hnext := ih (align4 n + align4 a.size)
      rwa [align4_add, Nat.add_assoc] at hnext

theorem holds_congr {bytes : List UInt8} (h : Holds r p bytes)
    (hsame : ∀ i, p ≤ i → i < p + bytes.length → r' i = r i) : Holds r' p bytes := by
  apply (holds_iff r' p bytes).mpr
  intro k hk
  rw [hsame (p + k) (by omega) (by omega)]
  exact (holds_iff r p bytes).mp h k hk

/-- What happens elsewhere does not matter. -/
theorem Lies.congr (h : Lies r p attrs)
    (hsame : ∀ i, p ≤ i → i < p + extent attrs → r' i = r i) : Lies r' p attrs := by
  induction attrs generalizing p with
  | nil => trivial
  | cons a attrs ih =>
      have hsize := le_align4 a.size
      constructor
      · refine holds_congr h.1 fun i hp hi => hsame i hp ?_
        rw [extent]
        rw [RtAttr.length_bytes] at hi
        omega
      · refine ih h.2 fun i hp hi => hsame i (by omega) ?_
        rw [extent]
        omega

theorem Lies.concat (h : Lies r p attrs) (hnew : Holds r (p + extent attrs) a.bytes) :
    Lies r p (attrs ++ [a]) := by
  induction attrs generalizing p with
  | nil => exact ⟨hnew, trivial⟩
  | cons b attrs ih =>
      rw [extent, ← Nat.add_assoc] at hnew
      exact ⟨h.1, ih h.2 hnew⟩

section Walk

theorem walkAttributes_stop {stop : Nat} (h : stop < p + sizeofRtattr) :
    walkAttributes r p stop = [] := by
  rw [walkAttributes, if_neg fun hok => absurd hok.1 (by omega)]

/-- The members of an attribute that stands at `p`. -/
theorem holds_bytes (h : Holds r p a.bytes) (hsize : a.size < 2 ^ 16) :
    (load16 r p).toNat = a.size ∧ load16 r (p + 2) = a.type ∧
      bytesAt r (p + sizeofRtattr) a.data.length = a.data := by
  rw [RtAttr.bytes, holds_append, holds_append] at h
  obtain ⟨⟨hlen, htype⟩, hdata⟩ := h
  refine ⟨?_, load16_of_holds htype, hdata.bytesAt_eq⟩
  rw [load16_of_holds hlen]
  exact RtAttr.size_toNat hsize

theorem walkAttributes_cons {stop : Nat} (h : Holds r p a.bytes) (hsize : a.size < 2 ^ 16)
    (hstop : p + a.size ≤ stop) :
    walkAttributes r p stop = a :: walkAttributes r (p + align4 a.size) stop := by
  obtain ⟨hlen, htype, hdata⟩ := holds_bytes h hsize
  have hleast : a.size = sizeofRtattr + a.data.length := rfl
  rw [walkAttributes, if_pos ⟨by omega, by omega, by omega⟩, rtaAlign_toNat, hlen, htype, hleast,
    Nat.add_sub_cancel_left, hdata]

/-- The walk finds what stands there. -/
theorem Lies.walk (h : Lies r p attrs) (hsize : extent attrs < 2 ^ 16) :
    walkAttributes r p (p + extent attrs) = attrs := by
  induction attrs generalizing p with
  | nil => exact walkAttributes_stop (Nat.lt_add_of_pos_right (by decide))
  | cons a attrs ih =>
      have halign := le_align4 a.size
      rw [extent] at hsize ⊢
      rw [walkAttributes_cons h.1 (by omega) (by omega), ← Nat.add_assoc, ih h.2 (by omega)]

end Walk

/-- What a call of `addRouterAttribute` does to a request whose attributes end at `p`. -/
structure Added (r r' : Memory) (p : Nat) (a : RtAttr) : Prop where
  stands : Holds r' p a.bytes
  length : (nlmsgLen r').toNat = p + align4 a.size
  /-- Besides the length only the bytes of the attribute are written. -/
  frame : ∀ i, 4 ≤ i → i < p ∨ p + a.size ≤ i → r' i = r i

section Step

/-- The request before its new length is written. -/
def withAttribute (r : Memory) (p : Nat) (a : RtAttr) : Memory :=
  store (store (store r (p + 2) (bytes16 a.type)) p (bytes16 (UInt16.ofNat a.size)))
    (p + sizeofRtattr) a.data

theorem withAttribute_holds (r : Memory) (p : Nat) (a : RtAttr) :
    Holds (withAttribute r p a) p a.bytes := by
  rw [RtAttr.bytes, holds_append, holds_append]
  refine ⟨⟨?_, ?_⟩, holds_store _ _ _⟩
  · exact (holds_store _ _ _).store (Or.inr (Nat.le_add_right _ 2))
  · have htype : Holds (store (store r (p + 2) (bytes16 a.type)) p
        (bytes16 (UInt16.ofNat a.size))) (p + 2) (bytes16 a.type) :=
      (holds_store _ _ _).store (Or.inl (Nat.le_refl _))
    exact htype.store (Or.inr (Nat.le_refl _))

theorem withAttribute_frame {i : Nat} (h : i < p ∨ p + a.size ≤ i) :
    withAttribute r p a i = r i := by
  have hsize : a.size = sizeofRtattr + a.data.length := rfl
  rw [withAttribute]
  cases h with
  | inl hbelow =>
      rw [store_apply_lt (by omega), store_apply_lt hbelow, store_apply_lt (by omega)]
  | inr habove =>
      simp only [sizeofRtattr] at *
      rw [store_apply_ge (by omega), store_apply_ge (by rw [bytes16_length]; omega),
        store_apply_ge (by rw [bytes16_length]; omega)]

theorem addRouterAttribute_eq (hplace : attrPlace sizeofMsg r = p) :
    addRouterAttribute sizeofMsg r a.type.toUInt32.toInt32 a.data =
      store (withAttribute r p a) 0 (bytes32 (nlmsgAlign (nlmsgLen (withAttribute r p a)) +
        rtaAlign (load16 (withAttribute r p a) p))) := by
  have htype : a.type.toUInt32.toInt32.toUInt32.toUInt16 = a.type := by simp
  simp only [addRouterAttribute, hplace, htype]
  rfl

theorem addRouterAttribute_added (hlen : align4 (nlmsgLen r).toNat = p)
    (hhdr : sizeofNlmsghdr ≤ p) (hsize : a.size < 2 ^ 16) (hfits : p + align4 a.size < 2 ^ 32) :
    Added r (addRouterAttribute sizeofMsg r a.type.toUInt32.toInt32 a.data) p a := by
  simp only [sizeofNlmsghdr] at hhdr
  have hp : align4 (nlmsgLen r).toNat < 2 ^ 32 := by omega
  have hstands := withAttribute_holds r p a
  have hkept : nlmsgLen (withAttribute r p a) = nlmsgLen r :=
    load32_congr fun k hk => withAttribute_frame (Or.inl (by omega))
  rw [addRouterAttribute_eq ((attrPlace_eq sizeofMsg hp).trans hlen), hkept]
  constructor
  · exact hstands.store (Or.inl (by rw [bytes32_length]; omega))
  · rw [nlmsgLen, load32_of_holds (holds_store _ _ _), UInt32.toNat_add, nlmsgAlign_toNat hp,
      rtaAlign_toNat, (holds_bytes hstands hsize).1, hlen]
    exact Nat.mod_eq_of_lt hfits
  · intro i hfour hi
    rw [store_apply_ge (by rwa [bytes32_length])]
    exact withAttribute_frame hi

end Step

/-- Where the attributes begin. -/
def attributeArea (sizeofMsg : Nat) : Nat := align4 (offsetofBuf sizeofMsg)

/-- `nlmsg_len` with the attributes. -/
def lengthWith (sizeofMsg : Nat) : List RtAttr → Nat
  | [] => offsetofBuf sizeofMsg
  | attrs => attributeArea sizeofMsg + extent attrs

/-- A request made from `r` by adding the attributes. -/
structure Built (sizeofMsg : Nat) (r r' : Memory) (attrs : List RtAttr) : Prop where
  lies : Lies r' (attributeArea sizeofMsg) attrs
  length : (nlmsgLen r').toNat = lengthWith sizeofMsg attrs
  frame : ∀ i, 4 ≤ i → i < attributeArea sizeofMsg ∨
    attributeArea sizeofMsg + extent attrs ≤ i → r' i = r i

theorem align4_lengthWith (sizeofMsg : Nat) (attrs : List RtAttr) :
    align4 (lengthWith sizeofMsg attrs) = attributeArea sizeofMsg + extent attrs := by
  cases attrs with
  | nil => rfl
  | cons a attrs => exact align4_extent _ _

theorem lengthWith_concat (sizeofMsg : Nat) (attrs : List RtAttr) (a : RtAttr) :
    lengthWith sizeofMsg (attrs ++ [a]) =
      attributeArea sizeofMsg + extent attrs + align4 a.size := by
  have hroom : extent (attrs ++ [a]) = extent attrs + align4 a.size := extent_append attrs [a]
  rw [Nat.add_assoc, ← hroom]
  cases attrs <;> rfl

theorem sizeofNlmsghdr_le_area (sizeofMsg : Nat) : sizeofNlmsghdr ≤ attributeArea sizeofMsg :=
  Nat.le_trans (Nat.le_add_right _ _) (le_align4 _)

theorem Built.add {r₀ : Memory} (h : Built sizeofMsg r₀ r attrs)
    (hfits : attributeArea sizeofMsg + extent (attrs ++ [a]) < 2 ^ 32)
    (hsize : a.size < 2 ^ 16) :
    Added r (addRouterAttribute sizeofMsg r a.type.toUInt32.toInt32 a.data)
      (attributeArea sizeofMsg + extent attrs) a := by
  have hhdr := sizeofNlmsghdr_le_area sizeofMsg
  have hroom : extent (attrs ++ [a]) = extent attrs + align4 a.size := extent_append attrs [a]
  refine addRouterAttribute_added ?_ (by omega) hsize (by omega)
  rw [h.length, align4_lengthWith]

theorem Built.step {r₀ : Memory} (h : Built sizeofMsg r₀ r attrs)
    (hadded : Added r r' (attributeArea sizeofMsg + extent attrs) a) :
    Built sizeofMsg r₀ r' (attrs ++ [a]) := by
  have hroom : extent (attrs ++ [a]) = extent attrs + align4 a.size := extent_append attrs [a]
  have hsize := le_align4 a.size
  have hhdr := sizeofNlmsghdr_le_area sizeofMsg
  simp only [sizeofNlmsghdr] at hhdr
  constructor
  · refine (h.lies.congr fun i hp hi => ?_).concat hadded.stands
    exact hadded.frame i (by omega) (Or.inl hi)
  · rw [hadded.length, lengthWith_concat]
  · intro i hfour hi
    rw [hadded.frame i hfour (by omega)]
    exact h.frame i hfour (by omega)

/-- Every request on the way is built as it should be. -/
theorem addRouterAttributes_built (hlen : (nlmsgLen r).toNat = offsetofBuf sizeofMsg)
    (hfits : attributeArea sizeofMsg + extent attrs < 2 ^ 32) (hroom : extent attrs < 2 ^ 16) :
    Built sizeofMsg r (addRouterAttributes sizeofMsg r attrs) attrs := by
  induction attrs using List.reverseRecOn with
  | nil => exact ⟨trivial, hlen, fun i _ _ => rfl⟩
  | append_singleton attrs a ih =>
      have hsum : extent (attrs ++ [a]) = extent attrs + align4 a.size := extent_append attrs [a]
      have hsize := le_align4 a.size
      have hbefore := ih (by omega) (by omega)
      rw [addRouterAttributes, run_append]
      exact hbefore.step (hbefore.add hfits (by omega))

theorem Built.walk (h : Built sizeofMsg r r' attrs) (hroom : extent attrs < 2 ^ 16) :
    walkAttributes r' (attributeArea sizeofMsg) (nlmsgLen r').toNat = attrs := by
  rw [h.length]
  cases attrs with
  | nil =>
      apply walkAttributes_stop
      exact Nat.lt_of_le_of_lt (le_align4 _) (Nat.lt_add_of_pos_right (by decide))
  | cons a attrs => exact h.lies.walk hroom

/-- What is added later leaves what is there alone. -/
theorem Built.later {r₀ : Memory} {after : List RtAttr} (h : Built sizeofMsg r₀ r attrs)
    (hfits : attributeArea sizeofMsg + extent (attrs ++ after) < 2 ^ 32)
    (hroom : extent after < 2 ^ 16) {i : Nat} (hfour : 4 ≤ i)
    (hi : i < attributeArea sizeofMsg + extent attrs) :
    addRouterAttributes sizeofMsg r after i = r i := by
  induction after generalizing r attrs with
  | nil => rfl
  | cons a after ih =>
      have hsize := le_align4 a.size
      rw [List.append_cons] at hfits
      have hsum := extent_append (attrs ++ [a]) after
      have hone : extent (attrs ++ [a]) = extent attrs + align4 a.size := extent_append attrs [a]
      rw [extent] at hroom
      have hadded := h.add (a := a) (by omega) (by omega)
      rw [addRouterAttributes, run_cons]
      calc
        _ = addRouterAttribute sizeofMsg r a.type.toUInt32.toInt32 a.data i :=
          ih (h.step hadded) hfits (by omega) (by omega)
        _ = r i := hadded.frame i hfour (Or.inl hi)

/-- The attribute is written at a multiple of four, within `buf`. -/
structure Inside (sizeofMsg place : Nat) (a : RtAttr) : Prop where
  aligned : 4 ∣ place
  starts : offsetofBuf sizeofMsg ≤ place
  ends : place + a.size ≤ offsetofBuf sizeofMsg + sizeofBuf

theorem inside_of_fits {after : List RtAttr}
    (hfits : attributeArea sizeofMsg + extent (attrs ++ a :: after) ≤
      offsetofBuf sizeofMsg + sizeofBuf) :
    Inside sizeofMsg (attributeArea sizeofMsg + extent attrs) a := by
  have hstart : offsetofBuf sizeofMsg ≤ attributeArea sizeofMsg := le_align4 _
  have hsize := le_align4 a.size
  rw [extent_append, extent] at hfits
  constructor
  · rw [attributeArea, ← align4_extent]
    exact Nat.dvd_mul_left 4 _
  · omega
  · omega

theorem Built.attrPlace_eq {r₀ : Memory} (h : Built sizeofMsg r₀ r attrs)
    (hfits : attributeArea sizeofMsg + extent attrs < 2 ^ 32) :
    attrPlace sizeofMsg r = attributeArea sizeofMsg + extent attrs := by
  have hend : align4 (nlmsgLen r).toNat = attributeArea sizeofMsg + extent attrs := by
    rw [h.length, align4_lengthWith]
  rw [Dhcp.attrPlace_eq sizeofMsg (by omega), hend]

/-- Attributes that fit the buffer are found as they were added, each of them within the
buffer; the header, the message and the attributes before it stay as they were. -/
theorem addRouterAttributes_walk (hlen : (nlmsgLen r).toNat = offsetofBuf sizeofMsg)
    (hfits : attributeArea sizeofMsg + extent attrs ≤ offsetofBuf sizeofMsg + sizeofBuf)
    (hword : attributeArea sizeofMsg + extent attrs < 2 ^ 32) :
    walkAttributes (addRouterAttributes sizeofMsg r attrs) (attributeArea sizeofMsg)
        (nlmsgLen (addRouterAttributes sizeofMsg r attrs)).toNat = attrs ∧
      (∀ i, 4 ≤ i → i < offsetofBuf sizeofMsg ∨ offsetofBuf sizeofMsg + sizeofBuf ≤ i →
        addRouterAttributes sizeofMsg r attrs i = r i) ∧
      ∀ before a after, attrs = before ++ a :: after →
        Inside sizeofMsg (attrPlace sizeofMsg (addRouterAttributes sizeofMsg r before)) a ∧
        ∀ i, 4 ≤ i → i < attrPlace sizeofMsg (addRouterAttributes sizeofMsg r before) →
          addRouterAttributes sizeofMsg r attrs i =
            addRouterAttributes sizeofMsg r before i := by
  have hstart : offsetofBuf sizeofMsg ≤ attributeArea sizeofMsg := le_align4 _
  have hroom : extent attrs < 2 ^ 16 := by
    have hbuf : sizeofBuf = 256 := rfl
    omega
  have hbuilt := addRouterAttributes_built hlen hword hroom
  refine ⟨hbuilt.walk hroom, fun i hfour hi => hbuilt.frame i hfour (by omega), ?_⟩
  rintro before a after rfl
  have hsum := extent_append before (a :: after)
  have hbefore : Built sizeofMsg r (addRouterAttributes sizeofMsg r before) before :=
    addRouterAttributes_built hlen (by omega) (by omega)
  rw [hbefore.attrPlace_eq (by omega)]
  refine ⟨inside_of_fits hfits, fun i hfour hi => ?_⟩
  rw [addRouterAttributes, run_append]
  exact hbefore.later hword (by omega) hfour hi

/-- A zeroed request with a message of twelve bytes and two attributes, the first of
them with five bytes. -/
theorem addRouterAttributes_walk_two :
    walkAttributes (addRouterAttributes 12 (store (fun _ => 0) 0 (bytes32 28))
        [⟨rtaGateway, [192, 168, 1, 1, 7]⟩, ⟨rtaOif, [3, 0, 0, 0]⟩]) 28
        (nlmsgLen (addRouterAttributes 12 (store (fun _ => 0) 0 (bytes32 28))
          [⟨rtaGateway, [192, 168, 1, 1, 7]⟩, ⟨rtaOif, [3, 0, 0, 0]⟩])).toNat =
      [⟨rtaGateway, [192, 168, 1, 1, 7]⟩, ⟨rtaOif, [3, 0, 0, 0]⟩] :=
  (addRouterAttributes_walk (by decide) (by decide) (by decide)).1

namespace RouteRequest

/-- The attributes of a request, each with the bytes of its word. -/
def rtAttrs (request : RouteRequest) : List RtAttr :=
  request.attributes.map fun entry => ⟨entry.1, bytes32 entry.2⟩

theorem rtAttrs_addRouterAttribute (request : RouteRequest) (type : UInt16) (data : UInt32) :
    (request.addRouterAttribute type data).rtAttrs = request.rtAttrs ++ [⟨type, bytes32 data⟩] :=
  List.map_append

theorem extent_rtAttrs (request : RouteRequest) :
    extent request.rtAttrs = 8 * request.attributes.length := by
  rw [rtAttrs]
  induction request.attributes with
  | nil => rfl
  | cons entry entries ih =>
      have hone : align4 (RtAttr.size ⟨entry.1, bytes32 entry.2⟩) = 8 := by
        rw [RtAttr.size, bytes32_length]
        rfl
      rw [List.map_cons, extent, hone, ih, List.length_cons]
      omega

/-- A request for a route with up to thirty-two attributes holds them as the list says. -/
theorem built (request : RouteRequest) (hlen : (nlmsgLen r).toNat = offsetofBuf 12)
    (hcount : request.attributes.length ≤ 32) :
    Built 12 r (addRouterAttributes 12 r request.rtAttrs) request.rtAttrs := by
  have hroom := request.extent_rtAttrs
  have harea : attributeArea 12 = 28 := rfl
  exact addRouterAttributes_built hlen (by omega) (by omega)

end RouteRequest

/-- What `setDefaultGateway` sends, read by the rules of netlink. -/
theorem Router.gatewayRequest_walk (gateway : InAddr) (ifaceIndex : UInt32)
    (hlen : (nlmsgLen r).toNat = offsetofBuf 12) :
    walkAttributes (addRouterAttributes 12 r (gatewayRequest gateway ifaceIndex).rtAttrs) 28
        (nlmsgLen (addRouterAttributes 12 r (gatewayRequest gateway ifaceIndex).rtAttrs)).toNat =
      [⟨rtaGateway, bytes32 gateway⟩, ⟨rtaOif, bytes32 ifaceIndex⟩] := by
  have hroom := (gatewayRequest gateway ifaceIndex).extent_rtAttrs
  have hcount : (gatewayRequest gateway ifaceIndex).attributes.length = 2 := rfl
  exact ((gatewayRequest gateway ifaceIndex).built hlen (by omega)).walk (by omega)

end AndroidX86Tv.Dhcp
