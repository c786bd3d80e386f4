import Jrtplib4Android.Rtmp.Amf

/-!
# AMF round trip

`AMF_Encode` stops at the first property that does not fit and closes the object all the
same. `amfWire` is the whole encoding of a property, `amfKept` what is left of it in a given
room, and `amfRead` how it is read back. `AMFItem` says that a decoder takes some bytes for
a property whatever follows them; the loop of `AMF_Decode` takes items one by one, so an
object that was written is read back as the part of it that was kept.
-/

namespace Jrtplib4Android

open CSem

mutual

/-- The whole encoding of a property. -/
def amfWire : AMFObjectProperty → List UInt8
  | .invalid => []
  | .number p_name v => amfNameWire p_name ++ AMFDataType.number.code :: beBytes 8 v.toNat
  | .boolean p_name v =>
    amfNameWire p_name ++ [AMFDataType.boolean.code, if Double.isZero v then 0 else 1]
  | .string p_name bv => amfNameWire p_name ++
    if bv.length < 65536 then AMFDataType.string.code :: (beBytes 2 bv.length ++ bv)
    else AMFDataType.longString.code :: (beBytes 4 bv.length ++ bv)
  | .object p_name o =>
    amfNameWire p_name ++ AMFDataType.object.code :: (amfPropsWire o ++ [0, 0, 9])
  | .null _ => [AMFDataType.null.code]
  | .date p_name v p_UTCoffset => amfNameWire p_name ++
    AMFDataType.date.code :: (beBytes 8 v.toNat ++ beBytes 2 p_UTCoffset)

/-- The whole encoding of properties. -/
def amfPropsWire : List AMFObjectProperty → List UInt8
  | [] => []
  | prop :: props => amfWire prop ++ amfPropsWire props

end

mutual

/-- What is left of a property that is written into the given room. -/
def amfKept (room : Nat) : AMFObjectProperty → AMFObjectProperty
  | .object p_name o =>
    .object p_name (amfPropsKept (room - (amfNameWire p_name).length - 1) o)
  | prop => prop

/-- What is left of properties: those in front of the first that does not fit. -/
def amfPropsKept (room : Nat) : List AMFObjectProperty → List AMFObjectProperty
  | [] => []
  | prop :: props =>
    match amfPropEncode room prop with
    | none => []
    | some bs => amfKept room prop :: amfPropsKept (room - bs.length) props

end

mutual

/-- A property as it is read back: a boolean is 0 or 1 then. -/
def amfRead : AMFObjectProperty → AMFObjectProperty
  | .boolean p_name v =>
    .boolean p_name (if Double.isZero v then Double.ofNat 0 else Double.ofNat 1)
  | .object p_name o => .object p_name (amfPropsRead o)
  | prop => prop

/-- Properties as they are read back. -/
def amfPropsRead : List AMFObjectProperty → List AMFObjectProperty
  | [] => []
  | prop :: props => amfRead prop :: amfPropsRead props

end

/-- A name that can be told from the end mark, where names are written. -/
def AMFNamed (named : Bool) (p_name : AVal) : Prop :=
  if named then 0 < p_name.length ∧ p_name.length < 65536 else p_name = []

mutual

/-- The properties that are read back. A null property is written without its name, and an
unnamed number may begin like the end mark. -/
def AMFObjectProperty.Plain (named : Bool) : AMFObjectProperty → Prop
  | .number p_name v => AMFNamed named p_name ∧ (named ∨ v.toNat / 2 ^ 48 ≠ 9)
  | .boolean p_name _ => AMFNamed named p_name
  | .string p_name bv => AMFNamed named p_name ∧ bv.length < 2 ^ 31
  | .object p_name o => AMFNamed named p_name ∧ AMFPlain o
  | .null p_name => named = false ∧ p_name = []
  | .invalid | .date _ _ _ => False

/-- An object of such properties, all named. -/
def AMFPlain : List AMFObjectProperty → Prop
  | [] => True
  | prop :: props => prop.Plain true ∧ AMFPlain props

end

section

variable {prop : List UInt8 → Int → Except Fault (AMFAnswer AMFObjectProperty)}

/-- The decoder takes these bytes for this property, whatever follows them. -/
structure AMFItem (prop : List UInt8 → Int → Except Fault (AMFAnswer AMFObjectProperty))
    (bs : List UInt8) (q : AMFObjectProperty) : Prop where
  pos : 0 < bs.length
  no_mark : ∀ rest, amfDecodeInt 3 (bs ++ rest) ≠ .ok 9
  decodes : ∀ rest (nSize : Int), bs.length ≤ nSize → nSize ≤ (bs ++ rest).length →
    prop (bs ++ rest) nSize = .ok (some (q, bs.length))

theorem amfAtEnd_eq_false {pBuffer : List UInt8} {nSize : Int} (hlen : nSize ≤ pBuffer.length)
    (h : amfDecodeInt 3 pBuffer ≠ .ok 9) : amfAtEnd pBuffer nSize = .ok false := by
  unfold amfAtEnd
  split
  · rfl
  · have hread : ¬ pBuffer.length < 3 := by omega
    rw [amfDecodeInt, if_neg hread] at h ⊢
    have hne : beNat (pBuffer.take 3) ≠ 9 := fun he => h (congrArg Except.ok he)
    simp only [Except.map, beq_eq_false_iff_ne.mpr hne]

/-- A pass reads one item. -/
theorem amfDecodePass_item {bs rest : List UInt8} {q : AMFObjectProperty} {nSize : Int}
    {obj : List AMFObjectProperty} (h : AMFItem prop bs q) (hlo : bs.length ≤ nSize)
    (hhi : nSize ≤ (bs ++ rest).length) :
    amfDecodePass prop ⟨bs ++ rest, nSize, false, obj⟩ =
      .again ⟨rest, nSize - bs.length, false, obj ++ [q]⟩ := by
  have hpos := h.pos
  have hrun : ¬ nSize ≤ 0 := by omega
  simp only [amfDecodePass, hrun, if_false, amfAtEnd_eq_false hhi (h.no_mark rest),
    h.decodes rest nSize hlo hhi, bind, Except.bind, Bool.false_eq_true, pure, Except.pure,
    Pass.attempt, Int.toNat_natCast, List.drop_left]

/-- The loop reads item after item. -/
theorem loop_amfDecodePass_items {items : List (List UInt8 × AMFObjectProperty)}
    (h : ∀ i ∈ items, AMFItem prop i.1 i.2) (rest : List UInt8) {nSize : Int}
    (obj : List AMFObjectProperty) (fuel : Nat)
    (hlo : (items.flatMap Prod.fst).length ≤ nSize)
    (hhi : nSize ≤ (items.flatMap Prod.fst ++ rest).length) :
    loop (amfDecodePass prop) (items.length + fuel)
        ⟨items.flatMap Prod.fst ++ rest, nSize, false, obj⟩ =
      loop (amfDecodePass prop) fuel
        ⟨rest, nSize - (items.flatMap Prod.fst).length, false, obj ++ items.map Prod.snd⟩ := by
  induction items generalizing nSize obj with
  | nil =>
    simp only [List.flatMap_nil, List.nil_append, List.length_nil, Nat.zero_add, List.map_nil,
      List.append_nil, Int.natCast_zero, Int.sub_zero]
  | cons i items ih =>
    rw [List.forall_mem_cons] at h
    rw [List.flatMap_cons, List.append_assoc] at hhi
    rw [List.flatMap_cons, List.length_append] at hlo ⊢
    have hhi' := hhi
    rw [List.length_append] at hhi'
    rw [List.append_assoc, List.length_cons,
      show items.length + 1 + fuel = items.length + fuel + 1 by omega,
      loop_again (amfDecodePass_item h.1 (by omega) hhi), ih h.2 _ (by omega) (by omega)]
    congr 2
    · omega
    · rw [List.map_cons, List.append_assoc, List.singleton_append]

/-- There are no more items than bytes. -/
theorem length_le_of_items {items : List (List UInt8 × AMFObjectProperty)}
    (h : ∀ i ∈ items, AMFItem prop i.1 i.2) :
    items.length ≤ (items.flatMap Prod.fst).length := by
  induction items with
  | nil => exact Nat.zero_le _
  | cons i items ih =>
    rw [List.forall_mem_cons] at h
    have hi := h.1.pos
    have hle := ih h.2
    rw [List.flatMap_cons, List.length_append, List.length_cons]
    omega

/-- Items that fill the buffer are read. -/
theorem amfDecodeWith_items {items : List (List UInt8 × AMFObjectProperty)}
    (h : ∀ i ∈ items, AMFItem prop i.1 i.2) :
    amfDecodeWith prop (items.flatMap Prod.fst) (items.flatMap Prod.fst).length =
      .ok (some (items.map Prod.snd, (items.flatMap Prod.fst).length)) := by
  have hle := length_le_of_items h
  obtain ⟨k, hk⟩ : ∃ k, (items.flatMap Prod.fst).length + 2 = items.length + (k + 1) :=
    ⟨_, show _ = items.length + (((items.flatMap Prod.fst).length - items.length + 1) + 1) by
      omega⟩
  have hrun := loop_amfDecodePass_items h [] [] (k + 1) (Int.le_refl _)
    (by rw [List.append_nil])
  rw [List.append_nil, Int.sub_self] at hrun
  have hleave : amfDecodePass prop ⟨[], 0, false, [] ++ items.map Prod.snd⟩ =
      .leave (.ok ⟨[], 0, false, [] ++ items.map Prod.snd⟩) := rfl
  rw [amfDecodeWith, Int.toNat_natCast, hk, hrun, loop_leave hleave (Nat.succ_pos k)]
  simp only [Except.map, Bool.false_eq_true, if_false, List.nil_append, Int.sub_zero]

/-- Items in front of an end mark are read with it, whatever follows. -/
theorem amfDecodeWith_marked {items : List (List UInt8 × AMFObjectProperty)}
    (h : ∀ i ∈ items, AMFItem prop i.1 i.2) (rest : List UInt8) {nSize : Int}
    (hlo : ((items.flatMap Prod.fst).length : Int) + 3 ≤ nSize)
    (hhi : nSize ≤ (items.flatMap Prod.fst ++ ([0, 0, 9] ++ rest)).length) :
    amfDecodeWith prop (items.flatMap Prod.fst ++ ([0, 0, 9] ++ rest)) nSize =
      .ok (some (items.map Prod.snd, (items.flatMap Prod.fst).length + 3)) := by
  have hle := length_le_of_items h
  obtain ⟨k, hk⟩ : ∃ k, nSize.toNat + 2 = items.length + (k + 1) :=
    ⟨_, show _ = items.length + ((nSize.toNat - items.length + 1) + 1) by omega⟩
  have hrun := loop_amfDecodePass_items h ([0, 0, 9] ++ rest) [] (k + 1) (by omega) hhi
  have hleave : ∀ (n : Int) (obj : List AMFObjectProperty), 3 ≤ n →
      amfDecodePass prop ⟨[0, 0, 9] ++ rest, n, false, obj⟩ =
        .leave (.ok ⟨[0, 0, 9] ++ rest, n - 3, false, obj⟩) := by
    intro n obj hn
    have hrun : ¬ n ≤ 0 := by omega
    have hend : amfAtEnd ([0, 0, 9] ++ rest) n = .ok true := by
      have hmark : amfDecodeInt 3 ([0, 0, 9] ++ rest) = .ok 9 := amfDecodeInt_append rfl rest
      rw [amfAtEnd, if_neg (by omega), hmark]
      rfl
    simp only [amfDecodePass, hrun, if_false, hend, bind, Except.bind, if_true, pure, Except.pure,
      Pass.attempt]
  rw [amfDecodeWith, hk, hrun, loop_leave (hleave _ _ (by omega)) (Nat.succ_pos k)]
  simp only [Except.map, Bool.false_eq_true, if_false, List.nil_append]
  congr 3
  omega

end

@[simp] theorem amfNamed_false {p_name : AVal} : AMFNamed false p_name ↔ p_name = [] := by
  rw [AMFNamed, if_neg Bool.false_ne_true]

theorem amfNameWire_of_named {p_name : AVal} (h : AMFNamed true p_name) :
    amfNameWire p_name = beBytes 2 p_name.length ++ p_name := by
  have hpos : ¬ p_name.length = 0 := by
    have := h.1
    omega
  rw [amfNameWire, if_neg hpos]

theorem amfNameWire_of_unnamed {p_name : AVal} (h : AMFNamed false p_name) :
    amfNameWire p_name = [] := by
  rw [amfNamed_false.mp h]
  rfl

/-- A name that is followed by a value is read back. -/
theorem amfNameDecode_nameWire {named : Bool} {p_name : AVal} (h : AMFNamed named p_name)
    (rest : List UInt8) {nSize : Int} (hn : (amfNameWire p_name).length + 1 ≤ nSize) :
    amfNameDecode named (amfNameWire p_name ++ rest) nSize =
      .ok (some (p_name, (amfNameWire p_name).length)) := by
  cases named with
  | false =>
    rw [amfNameWire_of_unnamed h, amfNamed_false.mp h]
    rfl
  | true =>
    have hpos : 0 < p_name.length := h.1
    have hlt : p_name.length < 65536 := h.2
    rw [amfNameWire_of_named h, List.length_append, length_beBytes] at hn ⊢
    have h4 : ¬ nSize < 4 := by omega
    have hfits : ¬ nSize - 2 < (p_name.length : Int) := by omega
    rw [amfNameDecode, List.append_assoc, amfDecodeInt_beBytes (show _ < 256 ^ 2 from hlt),
      amfDecodeAVal_append (show _ < 256 ^ 2 from hlt)]
    simp only [if_true, h4, if_false, bind, Except.bind, hfits, pure, Except.pure]

section

variable {amf3Decode : List UInt8 → Int → Except Fault (AMFAnswer (List AMFObjectProperty))}
variable {depth : Nat}

/-- A property is taken if its value is, behind the type. -/
theorem amfItem_of_value {named : Bool} {p_name : AVal} {t : AMFDataType} {vs : List UInt8}
    {q : AMFObjectProperty} (hname : AMFNamed named p_name)
    (hmark : named = true ∨ ∀ data, amfDecodeInt 3 (t.code :: (vs ++ data)) ≠ .ok 9)
    (hvalue : ∀ rest (n : Int), vs.length ≤ n → n ≤ (vs ++ rest).length →
      amfValueDecode amf3Decode (amfPropDecode amf3Decode depth) (some t) p_name (vs ++ rest) n =
        .ok (some (q, n - vs.length))) :
    AMFItem (amfPropDecode amf3Decode (depth + 1) named) (amfNameWire p_name ++ t.code :: vs)
      q where
  pos := by
    rw [List.length_append, List.length_cons]
    omega
  no_mark rest := by
    rw [List.append_assoc, List.cons_append]
    cases named with
    | false =>
      rw [amfNameWire_of_unnamed hname, List.nil_append]
      exact (hmark.resolve_left Bool.false_ne_true) rest
    | true =>
      rw [amfNameWire_of_named hname, List.append_assoc]
      exact amfDecodeInt_three_name_ne hname.1 hname.2 _
  decodes rest nSize hlo hhi := by
    simp only [List.append_assoc, List.cons_append, List.length_append, List.length_cons]
      at hlo hhi ⊢
    have h0 : ¬ nSize = 0 := by omega
    have h1 : ¬ nSize - (amfNameWire p_name).length = 0 := by omega
    have hread : amfNameDecode named (amfNameWire p_name ++ t.code :: (vs ++ rest)) nSize =
        .ok (some (p_name, (amfNameWire p_name).length)) :=
      amfNameDecode_nameWire hname _ (by omega)
    have htype : amfDecodeInt 1 ((amfNameWire p_name ++ t.code :: (vs ++ rest)).drop
        (amfNameWire p_name).length) = .ok t.code.toNat := by
      rw [List.drop_left]
      have hbyte : amfDecodeInt 1 ([t.code] ++ (vs ++ rest)) = .ok (beNat [t.code]) :=
        amfDecodeInt_append rfl _
      rwa [show beNat [t.code] = t.code.toNat by
        rw [beNat, List.foldl_cons, List.foldl_nil, Nat.mul_zero, Nat.zero_add]] at hbyte
    have hdrop : (amfNameWire p_name ++ t.code :: (vs ++ rest)).drop
        ((amfNameWire p_name).length + 1) = vs ++ rest := by
      rw [← List.drop_drop, List.drop_left, List.drop_one, List.tail_cons]
    have hrest := hvalue rest (nSize - (amfNameWire p_name).length - 1) (by omega)
      (by rw [List.length_append]; omega)
    simp only [amfPropDecode, h0, if_false, hread, bind,
      Except.bind, h1, htype, hdrop, AMFDataType.ofCode_code, hrest, pure, Except.pure,
      Option.map]
    congr 3
    omega

/-- The value of a string, behind its type. -/
theorem amfItem_string {named : Bool} {p_name bv : AVal} (hname : AMFNamed named p_name)
    (hbv : bv.length < 2 ^ 31) :
    AMFItem (amfPropDecode amf3Decode (depth + 1) named) (amfWire (.string p_name bv))
      (.string p_name bv) := by
  rw [amfWire]
  split
  case isTrue hshort =>
    refine amfItem_of_value hname (.inr fun data => amfDecodeInt_three_ne (by decide) _) ?_
    intro rest n hlo hhi
    rw [List.length_append, length_beBytes] at hlo ⊢
    have hsize : ¬ n < (bv.length : Int) + 2 := by omega
    rw [amfValueDecode, List.append_assoc, amfDecodeInt_beBytes (show _ < 256 ^ 2 from hshort),
      amfDecodeAVal_append (show _ < 256 ^ 2 from hshort)]
    simp only [bind, Except.bind, hsize, if_false, pure, Except.pure]
    congr 3
  case isFalse hlong =>
    have hlt : bv.length < 256 ^ 4 := by omega
    refine amfItem_of_value hname (.inr fun data => amfDecodeInt_three_ne (by decide) _) ?_
    intro rest n hlo hhi
    rw [List.length_append, length_beBytes] at hlo ⊢
    have hsize : ¬ n < (bv.length : Int) + 4 := by omega
    rw [amfValueDecode, List.append_assoc, amfDecodeInt_beBytes hlt, amfDecodeAVal_append hlt]
    simp only [bind, Except.bind, hsize, if_false, pure, Except.pure]
    congr 3

/-- The value of an object whose properties are read back. -/
theorem amfItem_object {named : Bool} {p_name : AVal} {o : List AMFObjectProperty}
    (hname : AMFNamed named p_name) {items : List (List UInt8 × AMFObjectProperty)}
    (hwire : items.flatMap Prod.fst = amfPropsWire o) (hread : items.map Prod.snd = amfPropsRead o)
    (hitems : ∀ i ∈ items, AMFItem (amfPropDecode amf3Decode depth true) i.1 i.2) :
    AMFItem (amfPropDecode amf3Decode (depth + 1) named) (amfWire (.object p_name o))
      (amfRead (.object p_name o)) := by
  rw [amfWire, amfRead, ← hwire, ← hread]
  refine amfItem_of_value hname (.inr fun data => amfDecodeInt_three_ne (by decide) _) ?_
  intro rest n hlo hhi
  rw [List.append_assoc] at hhi ⊢
  rw [List.length_append] at hlo ⊢
  simp only [List.length_cons, List.length_nil] at hlo ⊢
  simp only [amfValueDecode, amfDecodeWith_marked hitems rest (by omega) hhi, Except.map,
    Option.map]
  congr 3

mutual

/-- A plain property is read back, whatever follows it. -/
theorem amfItem_wire : ∀ {depth : Nat} {named : Bool} {p : AMFObjectProperty}, p.Plain named →
    (amfWire p).length ≤ depth →
    AMFItem (amfPropDecode amf3Decode depth named) (amfWire p) (amfRead p)
  | depth, named, .number p_name v, h, hdepth => by
    rw [amfWire, List.length_append, List.length_cons] at hdepth
    obtain ⟨d, rfl⟩ : ∃ d, depth = d + 1 := ⟨depth - 1, by omega⟩
    rw [amfWire]
    refine amfItem_of_value h.1 (h.2.imp_right fun hv => amfDecodeInt_three_number_ne hv) ?_
    intro rest n hlo hhi
    rw [length_beBytes] at hlo ⊢
    have hsize : ¬ n < 8 := by omega
    rw [amfValueDecode, amfDecodeNumber_beBytes]
    simp only [hsize, if_false, bind, Except.bind, pure, Except.pure]
    rfl
  | depth, named, .boolean p_name v, h, hdepth => by
    rw [amfWire, List.length_append, List.length_cons] at hdepth
    obtain ⟨d, rfl⟩ : ∃ d, depth = d + 1 := ⟨depth - 1, by omega⟩
    rw [amfWire]
    refine amfItem_of_value h (.inr fun data => amfDecodeInt_three_ne (by decide) _) ?_
    intro rest n hlo hhi
    rw [List.length_singleton] at hlo ⊢
    have hsize : ¬ n < 1 := by omega
    have hbyte : ∀ b : UInt8, amfDecodeInt 1 ([b] ++ rest) = .ok (beNat [b]) :=
      fun b => amfDecodeInt_append rfl rest
    rw [amfValueDecode, amfRead, hbyte]
    simp only [hsize, if_false, bind, Except.bind, pure, Except.pure]
    cases Double.isZero v <;> rfl
  | depth, named, .string p_name bv, h, hdepth => by
    rw [amfWire, List.length_append] at hdepth
    have hvalue : 0 < depth := by
      split at hdepth <;> rw [List.length_cons] at hdepth <;> omega
    obtain ⟨d, rfl⟩ : ∃ d, depth = d + 1 := ⟨depth - 1, by omega⟩
    exact amfItem_string h.1 h.2
  | depth, named, .object p_name o, h, hdepth => by
    rw [amfWire, List.length_append, List.length_cons, List.length_append] at hdepth
    obtain ⟨d, rfl⟩ : ∃ d, depth = d + 1 := ⟨depth - 1, by omega⟩
    obtain ⟨items, hwire, hread, hitems⟩ :=
      amfItems_wire d h.2 (by omega)
    exact amfItem_object h.1 hwire hread hitems
  | depth, named, .null p_name, h, hdepth => by
    rw [amfWire, List.length_singleton] at hdepth
    obtain ⟨d, rfl⟩ : ∃ d, depth = d + 1 := ⟨depth - 1, by omega⟩
    obtain ⟨rfl, rfl⟩ := h
    have hnull : AMFItem (amfPropDecode amf3Decode (d + 1) false)
        (amfNameWire [] ++ AMFDataType.null.code :: []) (.null []) := by
      refine amfItem_of_value (amfNamed_false.mpr rfl)
        (.inr fun data => amfDecodeInt_three_ne (by decide) _) ?_
      intro rest n hlo hhi
      rw [List.length_nil, Int.natCast_zero, Int.sub_zero]
      rfl
    exact hnull

/-- Plain properties are read back one by one. -/
theorem amfItems_wire : ∀ (depth : Nat) {o : List AMFObjectProperty}, AMFPlain o →
    (amfPropsWire o).length ≤ depth →
    ∃ items : List (List UInt8 × AMFObjectProperty), items.flatMap Prod.fst = amfPropsWire o ∧
      items.map Prod.snd = amfPropsRead o ∧
      ∀ i ∈ items, AMFItem (amfPropDecode amf3Decode depth true) i.1 i.2
  | _, [], _, _ => ⟨[], rfl, rfl, fun _ h => absurd h List.not_mem_nil⟩
  | depth, p :: o, h, hdepth => by
    rw [amfPropsWire, List.length_append] at hdepth
    obtain ⟨items, hwire, hread, hitems⟩ := amfItems_wire depth h.2 (by omega)
    refine ⟨(amfWire p, amfRead p) :: items, ?_, ?_, ?_⟩
    · rw [List.flatMap_cons, hwire, amfPropsWire]
    · rw [List.map_cons, hread, amfPropsRead]
    · exact List.forall_mem_cons.mpr ⟨amfItem_wire h.1 (by omega), hitems⟩

end

end

/-! ## What is written -/

/-- A named value is written behind its name. -/
theorem amfPropEncodeWith_eq_some {room : Nat} {p_name : AVal}
    {value : Nat → Option (List UInt8)} {bs : List UInt8} :
    amfPropEncodeWith room p_name value = some bs ↔ p_name.length + 3 < room ∧
      ∃ vs, value (room - (amfNameWire p_name).length) = some vs ∧
        bs = amfNameWire p_name ++ vs := by
  rw [amfPropEncodeWith]
  split
  case isTrue h => exact iff_of_false nofun fun h' => by omega
  case isFalse h =>
    have hroom : p_name.length + 3 < room := by omega
    rw [Option.bind_eq_bind, Option.bind_eq_some_iff]
    simp only [Option.some.injEq, hroom, true_and, eq_comm]

/-- An object is written between its marks. -/
theorem amfEncodeWith_eq_some {room : Nat} {props : Nat → List UInt8} {bs : List UInt8} :
    amfEncodeWith room props = some bs ↔ 4 < room ∧ (props (room - 1)).length + 4 < room ∧
      bs = AMFDataType.object.code :: (props (room - 1) ++ [0, 0, 9]) := by
  rw [amfEncodeWith]
  split
  case isTrue h => exact iff_of_false nofun fun h' => by omega
  case isFalse h =>
    dsimp only
    split
    case isTrue hroom => exact iff_of_false nofun fun h' => by omega
    case isFalse hroom =>
      have hmark : amfEncodeInt24 (room - 1 - (props (room - 1)).length) 9 = some [0, 0, 9] := by
        rw [amfEncodeInt24, amfEncodeInt, if_neg (by omega)]
        rfl
      have h4 : 4 < room ∧ (props (room - 1)).length + 4 < room := by omega
      simp only [hmark, Option.bind_eq_bind, Option.bind_some, Option.some.injEq, h4, true_and,
        eq_comm]

/-- The name of a property takes its length and its bytes. -/
theorem length_amfNameWire {p_name : AVal} (h : AMFNamed true p_name) :
    (amfNameWire p_name).length = p_name.length + 2 := by
  rw [amfNameWire_of_named h, List.length_append, length_beBytes, Nat.add_comm]

/-- A string that is written has five bytes more of room than its own. -/
theorem amfEncodeString_eq_some {room : Nat} {bv : AVal} {bs : List UInt8} :
    amfEncodeString room bv = some bs ↔ bv.length + 5 ≤ room ∧
      bs = if bv.length < 65536 then AMFDataType.string.code :: (beBytes 2 bv.length ++ bv)
        else AMFDataType.longString.code :: (beBytes 4 bv.length ++ bv) := by
  rw [amfEncodeString]
  split
  case isTrue h => exact iff_of_false nofun fun h' => by omega
  case isFalse h =>
    have hroom : bv.length + 5 ≤ room := by omega
    have h16 : amfEncodeInt16 (room - 1) bv.length = some (beBytes 2 bv.length) :=
      if_neg (by omega)
    have h32 : amfEncodeInt32 (room - 1) bv.length = some (beBytes 4 bv.length) :=
      if_neg (by omega)
    simp only [h16, h32, Option.bind_eq_bind, Option.bind_some, hroom, true_and]
    split <;> simp only [Option.some.injEq, eq_comm]

mutual

/-- What is written of a property is the encoding of what is kept. -/
theorem amfPropEncode_eq_some : ∀ {room : Nat} {named : Bool} {p : AMFObjectProperty}
    {bs : List UInt8}, p.Plain named → amfPropEncode room p = some bs →
    bs = amfWire (amfKept room p) ∧ (amfKept room p).Plain named
  | room, _, .number p_name v, bs, h, hbs => by
    rw [amfPropEncode, amfPropEncodeWith_eq_some] at hbs
    obtain ⟨-, vs, hvs, rfl⟩ := hbs
    rw [amfEncodeNumber, Option.ite_none_left_eq_some, Option.some.injEq] at hvs
    simp only [amfKept, amfWire, hvs.2, true_and]
    exact h
  | room, _, .boolean p_name v, bs, h, hbs => by
    rw [amfPropEncode, amfPropEncodeWith_eq_some] at hbs
    obtain ⟨-, vs, hvs, rfl⟩ := hbs
    rw [amfEncodeBoolean, Option.ite_none_left_eq_some, Option.some.injEq] at hvs
    simp only [amfKept, amfWire, ← hvs.2]
    refine ⟨?_, h⟩
    cases Double.isZero v <;> rfl
  | room, _, .string p_name bv, bs, h, hbs => by
    rw [amfPropEncode, amfPropEncodeWith_eq_some] at hbs
    obtain ⟨-, vs, hvs, rfl⟩ := hbs
    simp only [amfKept, amfWire, (amfEncodeString_eq_some.mp hvs).2, true_and]
    exact h
  | room, _, .object p_name o, bs, h, hbs => by
    rw [amfPropEncode, amfPropEncodeWith_eq_some] at hbs
    obtain ⟨-, vs, hvs, rfl⟩ := hbs
    obtain ⟨-, -, rfl⟩ := amfEncodeWith_eq_some.mp hvs
    obtain ⟨heq, hplain⟩ :=
      amfPropsEncode_eq (room - (amfNameWire p_name).length - 1) h.2
    rw [amfKept, amfWire, heq]
    exact ⟨rfl, h.1, hplain⟩
  | room, _, .null p_name, bs, h, hbs => by
    rw [amfPropEncode, Option.ite_none_left_eq_some, Option.some.injEq] at hbs
    simp only [amfKept, amfWire, hbs.2, true_and]
    exact h

/-- What is written of properties is the encoding of what is kept. -/
theorem amfPropsEncode_eq : ∀ (room : Nat) {o : List AMFObjectProperty}, AMFPlain o →
    amfPropsEncode room o = amfPropsWire (amfPropsKept room o) ∧
      AMFPlain (amfPropsKept room o)
  | _, [], _ => ⟨rfl, trivial⟩
  | room, p :: o, h => by
    rw [amfPropsEncode, amfPropsKept]
    cases hp : amfPropEncode room p with
    | none => exact ⟨rfl, trivial⟩
    | some bs =>
      obtain ⟨hbs, hplain⟩ := amfPropEncode_eq_some h.1 hp
      obtain ⟨heq, hrest⟩ := amfPropsEncode_eq (room - bs.length) h.2
      refine ⟨?_, hplain, hrest⟩
      rw [amfPropsWire, ← hbs, ← heq]

end

mutual

/-- A property with two bytes of room to spare is written and kept whole. -/
theorem amfPropEncode_of_room : ∀ (room : Nat) {p : AMFObjectProperty}, p.Plain true →
    (amfWire p).length + 2 ≤ room → amfPropEncode room p = some (amfWire p) ∧ amfKept room p = p
  | room, .number p_name v, h, hroom => by
    rw [amfWire, List.length_append, List.length_cons, length_beBytes,
      length_amfNameWire h.1] at hroom
    rw [amfPropEncode, amfPropEncodeWith_eq_some, amfWire]
    refine ⟨⟨by omega, _, if_neg ?_, rfl⟩, rfl⟩
    rw [length_amfNameWire h.1]
    omega
  | room, .boolean p_name v, h, hroom => by
    rw [amfWire, List.length_append, List.length_cons, List.length_singleton,
      length_amfNameWire h] at hroom
    rw [amfPropEncode, amfPropEncodeWith_eq_some, amfWire]
    refine ⟨⟨by omega, _, (if_neg ?_).trans ?_, rfl⟩, rfl⟩
    · rw [length_amfNameWire h]
      omega
    · cases Double.isZero v <;> rfl
  | room, .string p_name bv, h, hroom => by
    have hlen :
        (amfNameWire p_name).length + bv.length + 3 ≤ (amfWire (.string p_name bv)).length := by
      rw [amfWire]
      split <;> simp only [List.length_append, List.length_cons, length_beBytes] <;> omega
    rw [length_amfNameWire h.1] at hlen
    rw [amfPropEncode, amfPropEncodeWith_eq_some, amfWire]
    refine ⟨⟨by omega, _, amfEncodeString_eq_some.mpr ⟨?_, rfl⟩, rfl⟩, rfl⟩
    rw [length_amfNameWire h.1]
    omega
  | room, .object p_name o, h, hroom => by
    rw [amfWire, List.length_append, List.length_cons, List.length_append] at hroom
    simp only [List.length_cons, List.length_nil] at hroom
    obtain ⟨heq, hkept⟩ :=
      amfPropsEncode_of_room (room - (amfNameWire p_name).length - 1) h.2 (by omega)
    have hname := length_amfNameWire h.1
    rw [amfPropEncode, amfPropEncodeWith_eq_some, amfWire, amfKept, hkept]
    refine ⟨⟨by omega, _, amfEncodeWith_eq_some.mpr ⟨by omega, ?_, rfl⟩, ?_⟩, rfl⟩
    · rw [heq]
      omega
    · rw [heq]
  | _, .null _, h, _ => absurd h.1.symm Bool.false_ne_true

/-- Properties with two bytes of room to spare are written and kept whole. -/
theorem amfPropsEncode_of_room : ∀ (room : Nat) {o : List AMFObjectProperty}, AMFPlain o →
    (amfPropsWire o).length + 2 ≤ room →
    amfPropsEncode room o = amfPropsWire o ∧ amfPropsKept room o = o
  | _, [], _, _ => ⟨rfl, rfl⟩
  | room, p :: o, h, hroom => by
    rw [amfPropsWire, List.length_append] at hroom
    obtain ⟨hp, hkept⟩ := amfPropEncode_of_room room h.1 (by omega)
    obtain ⟨heq, hrest⟩ :=
      amfPropsEncode_of_room (room - (amfWire p).length) h.2 (by omega)
    rw [amfPropsEncode, amfPropsKept, hp]
    dsimp only
    rw [heq, hkept, hrest, amfPropsWire]
    exact ⟨rfl, rfl⟩

end

/-- An object is kept whole exactly if its encoding leaves room. -/
theorem amfPropsKept_eq_iff {room : Nat} {o : List AMFObjectProperty} {bs : List UInt8}
    (ho : AMFPlain o) (h : amfEncode room o = some bs) :
    amfPropsKept (room - 1) o = o ↔ (amfPropsWire o).length + 4 < room := by
  obtain ⟨-, hroom, -⟩ := amfEncodeWith_eq_some.mp h
  rw [(amfPropsEncode_eq (room - 1) ho).1] at hroom
  constructor
  · intro hkept
    rwa [hkept] at hroom
  · intro hfits
    exact (amfPropsEncode_of_room (room - 1) ho (by omega)).2

/-- An object between its marks. -/
theorem amfWire_object (o : List AMFObjectProperty) :
    amfWire (.object [] o) = AMFDataType.object.code :: (amfPropsWire o ++ [0, 0, 9]) := by
  rw [amfWire]
  rfl

/-- With room for more than its encoding an object is written whole. -/
theorem amfEncode_of_room {room : Nat} {o : List AMFObjectProperty} (ho : AMFPlain o)
    (hroom : (amfPropsWire o).length + 4 < room) :
    amfEncode room o = some (amfWire (.object [] o)) := by
  obtain ⟨heq, -⟩ := amfPropsEncode_of_room (room - 1) ho (by omega)
  refine amfEncodeWith_eq_some.mpr ⟨by omega, ?_, ?_⟩
  · rw [heq]
    exact hroom
  · rw [heq, amfWire_object]

/-- A null property loses its name, and what is behind it is skipped. -/
example : (amfEncode 30 [.null [0x61], .number [0x62] (Double.ofNat 1)]).map
    (fun bs => amfPropDecode (fun _ _ => .ok none) 30 false bs bs.length) =
      some (.ok (some (.object [] [], 17))) := by rfl

end Jrtplib4Android
