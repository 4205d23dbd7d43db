import WikiTypeset.Bidi.Class

/-!
# Table of bidi classes

The bidi class of every assigned code point (Unicode 14), as an ascending list of ranges of one class.
-/

namespace WikiTypeset.Bidi

private def classRanges1 : List ClassRange :=
  [⟨0x0, 0x8, .BN⟩, ⟨0x9, 0x9, .S⟩, ⟨0xA, 0xA, .B⟩, ⟨0xB, 0xB, .S⟩, ⟨0xC, 0xC, .WS⟩, ⟨0xD, 0xD, .B⟩,
   ⟨0xE, 0x1B, .BN⟩, ⟨0x1C, 0x1E, .B⟩, ⟨0x1F, 0x1F, .S⟩, ⟨0x20, 0x20, .WS⟩, ⟨0x21, 0x22, .ON⟩,
   ⟨0x23, 0x25, .ET⟩, ⟨0x26, 0x2A, .ON⟩, ⟨0x2B, 0x2B, .ES⟩, ⟨0x2C, 0x2C, .CS⟩, ⟨0x2D, 0x2D, .ES⟩,
   ⟨0x2E, 0x2F, .CS⟩, ⟨0x30, 0x39, .EN⟩, ⟨0x3A, 0x3A, .CS⟩, ⟨0x3B, 0x40, .ON⟩, ⟨0x41, 0x5A, .L⟩,
   ⟨0x5B, 0x60, .ON⟩, ⟨0x61, 0x7A, .L⟩, ⟨0x7B, 0x7E, .ON⟩, ⟨0x7F, 0x84, .BN⟩, ⟨0x85, 0x85, .B⟩,
   ⟨0x86, 0x9F, .BN⟩, ⟨0xA0, 0xA0, .CS⟩, ⟨0xA1, 0xA1, .ON⟩, ⟨0xA2, 0xA5, .ET⟩, ⟨0xA6, 0xA9, .ON⟩,
   ⟨0xAA, 0xAA, .L⟩, ⟨0xAB, 0xAC, .ON⟩, ⟨0xAD, 0xAD, .BN⟩, ⟨0xAE, 0xAF, .ON⟩, ⟨0xB0, 0xB1, .ET⟩,
   ⟨0xB2, 0xB3, .EN⟩, ⟨0xB4, 0xB4, .ON⟩, ⟨0xB5, 0xB5, .L⟩, ⟨0xB6, 0xB8, .ON⟩, ⟨0xB9, 0xB9, .EN⟩,
   ⟨0xBA, 0xBA, .L⟩, ⟨0xBB, 0xBF, .ON⟩, ⟨0xC0, 0xD6, .L⟩, ⟨0xD7, 0xD7, .ON⟩, ⟨0xD8, 0xF6, .L⟩,
   ⟨0xF7, 0xF7, .ON⟩, ⟨0xF8, 0x2B8, .L⟩, ⟨0x2B9, 0x2BA, .ON⟩, ⟨0x2BB, 0x2C1, .L⟩, ⟨0x2C2, 0x2CF, .ON⟩,
   ⟨0x2D0, 0x2D1, .L⟩, ⟨0x2D2, 0x2DF, .ON⟩, ⟨0x2E0, 0x2E4, .L⟩, ⟨0x2E5, 0x2ED, .ON⟩, ⟨0x2EE, 0x2EE, .L⟩,
   ⟨0x2EF, 0x2FF, .ON⟩, ⟨0x300, 0x36F, .NSM⟩, ⟨0x370, 0x373, .L⟩, ⟨0x374, 0x375, .ON⟩, ⟨0x376, 0x377, .L⟩,
   ⟨0x37A, 0x37D, .L⟩, ⟨0x37E, 0x37E, .ON⟩, ⟨0x37F, 0x37F, .L⟩, ⟨0x384, 0x385, .ON⟩, ⟨0x386, 0x386, .L⟩,
   ⟨0x387, 0x387, .ON⟩, ⟨0x388, 0x38A, .L⟩, ⟨0x38C, 0x38C, .L⟩, ⟨0x38E, 0x3A1, .L⟩, ⟨0x3A3, 0x3F5, .L⟩,
   ⟨0x3F6, 0x3F6, .ON⟩, ⟨0x3F7, 0x482, .L⟩, ⟨0x483, 0x489, .NSM⟩, ⟨0x48A, 0x52F, .L⟩, ⟨0x531, 0x556, .L⟩,
   ⟨0x559, 0x589, .L⟩, ⟨0x58A, 0x58A, .ON⟩, ⟨0x58D, 0x58E, .ON⟩, ⟨0x58F, 0x58F, .ET⟩, ⟨0x591, 0x5BD, .NSM⟩,
   ⟨0x5BE, 0x5BE, .R⟩, ⟨0x5BF, 0x5BF, .NSM⟩, ⟨0x5C0, 0x5C0, .R⟩, ⟨0x5C1, 0x5C2, .NSM⟩, ⟨0x5C3, 0x5C3, .R⟩,
   ⟨0x5C4, 0x5C5, .NSM⟩, ⟨0x5C6, 0x5C6, .R⟩, ⟨0x5C7, 0x5C7, .NSM⟩, ⟨0x5D0, 0x5EA, .R⟩, ⟨0x5EF, 0x5F4, .R⟩,
   ⟨0x600, 0x605, .AN⟩, ⟨0x606, 0x607, .ON⟩, ⟨0x608, 0x608, .AL⟩, ⟨0x609, 0x60A, .ET⟩, ⟨0x60B, 0x60B, .AL⟩,
   ⟨0x60C, 0x60C, .CS⟩, ⟨0x60D, 0x60D, .AL⟩, ⟨0x60E, 0x60F, .ON⟩, ⟨0x610, 0x61A, .NSM⟩, ⟨0x61B, 0x64A, .AL⟩,
   ⟨0x64B, 0x65F, .NSM⟩, ⟨0x660, 0x669, .AN⟩, ⟨0x66A, 0x66A, .ET⟩, ⟨0x66B, 0x66C, .AN⟩, ⟨0x66D, 0x66F, .AL⟩,
   ⟨0x670, 0x670, .NSM⟩, ⟨0x671, 0x6D5, .AL⟩, ⟨0x6D6, 0x6DC, .NSM⟩, ⟨0x6DD, 0x6DD, .AN⟩,
   ⟨0x6DE, 0x6DE, .ON⟩, ⟨0x6DF, 0x6E4, .NSM⟩, ⟨0x6E5, 0x6E6, .AL⟩, ⟨0x6E7, 0x6E8, .NSM⟩,
   ⟨0x6E9, 0x6E9, .ON⟩, ⟨0x6EA, 0x6ED, .NSM⟩, ⟨0x6EE, 0x6EF, .AL⟩, ⟨0x6F0, 0x6F9, .EN⟩, ⟨0x6FA, 0x70D, .AL⟩,
   ⟨0x70F, 0x710, .AL⟩, ⟨0x711, 0x711, .NSM⟩, ⟨0x712, 0x72F, .AL⟩, ⟨0x730, 0x74A, .NSM⟩,
   ⟨0x74D, 0x7A5, .AL⟩, ⟨0x7A6, 0x7B0, .NSM⟩, ⟨0x7B1, 0x7B1, .AL⟩, ⟨0x7C0, 0x7EA, .R⟩, ⟨0x7EB, 0x7F3, .NSM⟩,
   ⟨0x7F4, 0x7F5, .R⟩, ⟨0x7F6, 0x7F9, .ON⟩, ⟨0x7FA, 0x7FA, .R⟩, ⟨0x7FD, 0x7FD, .NSM⟩, ⟨0x7FE, 0x815, .R⟩,
   ⟨0x816, 0x819, .NSM⟩, ⟨0x81A, 0x81A, .R⟩, ⟨0x81B, 0x823, .NSM⟩, ⟨0x824, 0x824, .R⟩, ⟨0x825, 0x827, .NSM⟩,
   ⟨0x828, 0x828, .R⟩, ⟨0x829, 0x82D, .NSM⟩, ⟨0x830, 0x83E, .R⟩, ⟨0x840, 0x858, .R⟩, ⟨0x859, 0x85B, .NSM⟩,
   ⟨0x85E, 0x85E, .R⟩, ⟨0x860, 0x86A, .AL⟩, ⟨0x870, 0x88E, .AL⟩, ⟨0x890, 0x891, .AN⟩, ⟨0x898, 0x89F, .NSM⟩,
   ⟨0x8A0, 0x8C9, .AL⟩, ⟨0x8CA, 0x8E1, .NSM⟩, ⟨0x8E2, 0x8E2, .AN⟩, ⟨0x8E3, 0x902, .NSM⟩, ⟨0x903, 0x939, .L⟩,
   ⟨0x93A, 0x93A, .NSM⟩, ⟨0x93B, 0x93B, .L⟩, ⟨0x93C, 0x93C, .NSM⟩, ⟨0x93D, 0x940, .L⟩, ⟨0x941, 0x948, .NSM⟩,
   ⟨0x949, 0x94C, .L⟩, ⟨0x94D, 0x94D, .NSM⟩, ⟨0x94E, 0x950, .L⟩, ⟨0x951, 0x957, .NSM⟩, ⟨0x958, 0x961, .L⟩,
   ⟨0x962, 0x963, .NSM⟩, ⟨0x964, 0x980, .L⟩, ⟨0x981, 0x981, .NSM⟩, ⟨0x982, 0x983, .L⟩, ⟨0x985, 0x98C, .L⟩,
   ⟨0x98F, 0x990, .L⟩, ⟨0x993, 0x9A8, .L⟩, ⟨0x9AA, 0x9B0, .L⟩, ⟨0x9B2, 0x9B2, .L⟩, ⟨0x9B6, 0x9B9, .L⟩,
   ⟨0x9BC, 0x9BC, .NSM⟩, ⟨0x9BD, 0x9C0, .L⟩, ⟨0x9C1, 0x9C4, .NSM⟩, ⟨0x9C7, 0x9C8, .L⟩, ⟨0x9CB, 0x9CC, .L⟩,
   ⟨0x9CD, 0x9CD, .NSM⟩, ⟨0x9CE, 0x9CE, .L⟩, ⟨0x9D7, 0x9D7, .L⟩, ⟨0x9DC, 0x9DD, .L⟩, ⟨0x9DF, 0x9E1, .L⟩,
   ⟨0x9E2, 0x9E3, .NSM⟩, ⟨0x9E6, 0x9F1, .L⟩, ⟨0x9F2, 0x9F3, .ET⟩, ⟨0x9F4, 0x9FA, .L⟩, ⟨0x9FB, 0x9FB, .ET⟩,
   ⟨0x9FC, 0x9FD, .L⟩, ⟨0x9FE, 0x9FE, .NSM⟩, ⟨0xA01, 0xA02, .NSM⟩, ⟨0xA03, 0xA03, .L⟩, ⟨0xA05, 0xA0A, .L⟩,
   ⟨0xA0F, 0xA10, .L⟩, ⟨0xA13, 0xA28, .L⟩, ⟨0xA2A, 0xA30, .L⟩, ⟨0xA32, 0xA33, .L⟩, ⟨0xA35, 0xA36, .L⟩,
   ⟨0xA38, 0xA39, .L⟩, ⟨0xA3C, 0xA3C, .NSM⟩, ⟨0xA3E, 0xA40, .L⟩, ⟨0xA41, 0xA42, .NSM⟩, ⟨0xA47, 0xA48, .NSM⟩,
   ⟨0xA4B, 0xA4D, .NSM⟩, ⟨0xA51, 0xA51, .NSM⟩, ⟨0xA59, 0xA5C, .L⟩, ⟨0xA5E, 0xA5E, .L⟩, ⟨0xA66, 0xA6F, .L⟩,
   ⟨0xA70, 0xA71, .NSM⟩, ⟨0xA72, 0xA74, .L⟩, ⟨0xA75, 0xA75, .NSM⟩, ⟨0xA76, 0xA76, .L⟩, ⟨0xA81, 0xA82, .NSM⟩,
   ⟨0xA83, 0xA83, .L⟩, ⟨0xA85, 0xA8D, .L⟩, ⟨0xA8F, 0xA91, .L⟩, ⟨0xA93, 0xAA8, .L⟩, ⟨0xAAA, 0xAB0, .L⟩,
   ⟨0xAB2, 0xAB3, .L⟩, ⟨0xAB5, 0xAB9, .L⟩]

private def classRanges2 : List ClassRange :=
  [⟨0xABC, 0xABC, .NSM⟩, ⟨0xABD, 0xAC0, .L⟩, ⟨0xAC1, 0xAC5, .NSM⟩, ⟨0xAC7, 0xAC8, .NSM⟩, ⟨0xAC9, 0xAC9, .L⟩,
   ⟨0xACB, 0xACC, .L⟩, ⟨0xACD, 0xACD, .NSM⟩, ⟨0xAD0, 0xAD0, .L⟩, ⟨0xAE0, 0xAE1, .L⟩, ⟨0xAE2, 0xAE3, .NSM⟩,
   ⟨0xAE6, 0xAF0, .L⟩, ⟨0xAF1, 0xAF1, .ET⟩, ⟨0xAF9, 0xAF9, .L⟩, ⟨0xAFA, 0xAFF, .NSM⟩, ⟨0xB01, 0xB01, .NSM⟩,
   ⟨0xB02, 0xB03, .L⟩, ⟨0xB05, 0xB0C, .L⟩, ⟨0xB0F, 0xB10, .L⟩, ⟨0xB13, 0xB28, .L⟩, ⟨0xB2A, 0xB30, .L⟩,
   ⟨0xB32, 0xB33, .L⟩, ⟨0xB35, 0xB39, .L⟩, ⟨0xB3C, 0xB3C, .NSM⟩, ⟨0xB3D, 0xB3E, .L⟩, ⟨0xB3F, 0xB3F, .NSM⟩,
   ⟨0xB40, 0xB40, .L⟩, ⟨0xB41, 0xB44, .NSM⟩, ⟨0xB47, 0xB48, .L⟩, ⟨0xB4B, 0xB4C, .L⟩, ⟨0xB4D, 0xB4D, .NSM⟩,
   ⟨0xB55, 0xB56, .NSM⟩, ⟨0xB57, 0xB57, .L⟩, ⟨0xB5C, 0xB5D, .L⟩, ⟨0xB5F, 0xB61, .L⟩, ⟨0xB62, 0xB63, .NSM⟩,
   ⟨0xB66, 0xB77, .L⟩, ⟨0xB82, 0xB82, .NSM⟩, ⟨0xB83, 0xB83, .L⟩, ⟨0xB85, 0xB8A, .L⟩, ⟨0xB8E, 0xB90, .L⟩,
   ⟨0xB92, 0xB95, .L⟩, ⟨0xB99, 0xB9A, .L⟩, ⟨0xB9C, 0xB9C, .L⟩, ⟨0xB9E, 0xB9F, .L⟩, ⟨0xBA3, 0xBA4, .L⟩,
   ⟨0xBA8, 0xBAA, .L⟩, ⟨0xBAE, 0xBB9, .L⟩, ⟨0xBBE, 0xBBF, .L⟩, ⟨0xBC0, 0xBC0, .NSM⟩, ⟨0xBC1, 0xBC2, .L⟩,
   ⟨0xBC6, 0xBC8, .L⟩, ⟨0xBCA, 0xBCC, .L⟩, ⟨0xBCD, 0xBCD, .NSM⟩, ⟨0xBD0, 0xBD0, .L⟩, ⟨0xBD7, 0xBD7, .L⟩,
   ⟨0xBE6, 0xBF2, .L⟩, ⟨0xBF3, 0xBF8, .ON⟩, ⟨0xBF9, 0xBF9, .ET⟩, ⟨0xBFA, 0xBFA, .ON⟩, ⟨0xC00, 0xC00, .NSM⟩,
   ⟨0xC01, 0xC03, .L⟩, ⟨0xC04, 0xC04, .NSM⟩, ⟨0xC05, 0xC0C, .L⟩, ⟨0xC0E, 0xC10, .L⟩, ⟨0xC12, 0xC28, .L⟩,
   ⟨0xC2A, 0xC39, .L⟩, ⟨0xC3C, 0xC3C, .NSM⟩, ⟨0xC3D, 0xC3D, .L⟩, ⟨0xC3E, 0xC40, .NSM⟩, ⟨0xC41, 0xC44, .L⟩,
   ⟨0xC46, 0xC48, .NSM⟩, ⟨0xC4A, 0xC4D, .NSM⟩, ⟨0xC55, 0xC56, .NSM⟩, ⟨0xC58, 0xC5A, .L⟩, ⟨0xC5D, 0xC5D, .L⟩,
   ⟨0xC60, 0xC61, .L⟩, ⟨0xC62, 0xC63, .NSM⟩, ⟨0xC66, 0xC6F, .L⟩, ⟨0xC77, 0xC77, .L⟩, ⟨0xC78, 0xC7E, .ON⟩,
   ⟨0xC7F, 0xC80, .L⟩, ⟨0xC81, 0xC81, .NSM⟩, ⟨0xC82, 0xC8C, .L⟩, ⟨0xC8E, 0xC90, .L⟩, ⟨0xC92, 0xCA8, .L⟩,
   ⟨0xCAA, 0xCB3, .L⟩, ⟨0xCB5, 0xCB9, .L⟩, ⟨0xCBC, 0xCBC, .NSM⟩, ⟨0xCBD, 0xCC4, .L⟩, ⟨0xCC6, 0xCC8, .L⟩,
   ⟨0xCCA, 0xCCB, .L⟩, ⟨0xCCC, 0xCCD, .NSM⟩, ⟨0xCD5, 0xCD6, .L⟩, ⟨0xCDD, 0xCDE, .L⟩, ⟨0xCE0, 0xCE1, .L⟩,
   ⟨0xCE2, 0xCE3, .NSM⟩, ⟨0xCE6, 0xCEF, .L⟩, ⟨0xCF1, 0xCF2, .L⟩, ⟨0xD00, 0xD01, .NSM⟩, ⟨0xD02, 0xD0C, .L⟩,
   ⟨0xD0E, 0xD10, .L⟩, ⟨0xD12, 0xD3A, .L⟩, ⟨0xD3B, 0xD3C, .NSM⟩, ⟨0xD3D, 0xD40, .L⟩, ⟨0xD41, 0xD44, .NSM⟩,
   ⟨0xD46, 0xD48, .L⟩, ⟨0xD4A, 0xD4C, .L⟩, ⟨0xD4D, 0xD4D, .NSM⟩, ⟨0xD4E, 0xD4F, .L⟩, ⟨0xD54, 0xD61, .L⟩,
   ⟨0xD62, 0xD63, .NSM⟩, ⟨0xD66, 0xD7F, .L⟩, ⟨0xD81, 0xD81, .NSM⟩, ⟨0xD82, 0xD83, .L⟩, ⟨0xD85, 0xD96, .L⟩,
   ⟨0xD9A, 0xDB1, .L⟩, ⟨0xDB3, 0xDBB, .L⟩, ⟨0xDBD, 0xDBD, .L⟩, ⟨0xDC0, 0xDC6, .L⟩, ⟨0xDCA, 0xDCA, .NSM⟩,
   ⟨0xDCF, 0xDD1, .L⟩, ⟨0xDD2, 0xDD4, .NSM⟩, ⟨0xDD6, 0xDD6, .NSM⟩, ⟨0xDD8, 0xDDF, .L⟩, ⟨0xDE6, 0xDEF, .L⟩,
   ⟨0xDF2, 0xDF4, .L⟩, ⟨0xE01, 0xE30, .L⟩, ⟨0xE31, 0xE31, .NSM⟩, ⟨0xE32, 0xE33, .L⟩, ⟨0xE34, 0xE3A, .NSM⟩,
   ⟨0xE3F, 0xE3F, .ET⟩, ⟨0xE40, 0xE46, .L⟩, ⟨0xE47, 0xE4E, .NSM⟩, ⟨0xE4F, 0xE5B, .L⟩, ⟨0xE81, 0xE82, .L⟩,
   ⟨0xE84, 0xE84, .L⟩, ⟨0xE86, 0xE8A, .L⟩, ⟨0xE8C, 0xEA3, .L⟩, ⟨0xEA5, 0xEA5, .L⟩, ⟨0xEA7, 0xEB0, .L⟩,
   ⟨0xEB1, 0xEB1, .NSM⟩, ⟨0xEB2, 0xEB3, .L⟩, ⟨0xEB4, 0xEBC, .NSM⟩, ⟨0xEBD, 0xEBD, .L⟩, ⟨0xEC0, 0xEC4, .L⟩,
   ⟨0xEC6, 0xEC6, .L⟩, ⟨0xEC8, 0xECD, .NSM⟩, ⟨0xED0, 0xED9, .L⟩, ⟨0xEDC, 0xEDF, .L⟩, ⟨0xF00, 0xF17, .L⟩,
   ⟨0xF18, 0xF19, .NSM⟩, ⟨0xF1A, 0xF34, .L⟩, ⟨0xF35, 0xF35, .NSM⟩, ⟨0xF36, 0xF36, .L⟩, ⟨0xF37, 0xF37, .NSM⟩,
   ⟨0xF38, 0xF38, .L⟩, ⟨0xF39, 0xF39, .NSM⟩, ⟨0xF3A, 0xF3D, .ON⟩, ⟨0xF3E, 0xF47, .L⟩, ⟨0xF49, 0xF6C, .L⟩,
   ⟨0xF71, 0xF7E, .NSM⟩, ⟨0xF7F, 0xF7F, .L⟩, ⟨0xF80, 0xF84, .NSM⟩, ⟨0xF85, 0xF85, .L⟩, ⟨0xF86, 0xF87, .NSM⟩,
   ⟨0xF88, 0xF8C, .L⟩, ⟨0xF8D, 0xF97, .NSM⟩, ⟨0xF99, 0xFBC, .NSM⟩, ⟨0xFBE, 0xFC5, .L⟩, ⟨0xFC6, 0xFC6, .NSM⟩,
   ⟨0xFC7, 0xFCC, .L⟩, ⟨0xFCE, 0xFDA, .L⟩, ⟨0x1000, 0x102C, .L⟩, ⟨0x102D, 0x1030, .NSM⟩,
   ⟨0x1031, 0x1031, .L⟩, ⟨0x1032, 0x1037, .NSM⟩, ⟨0x1038, 0x1038, .L⟩, ⟨0x1039, 0x103A, .NSM⟩,
   ⟨0x103B, 0x103C, .L⟩, ⟨0x103D, 0x103E, .NSM⟩, ⟨0x103F, 0x1057, .L⟩, ⟨0x1058, 0x1059, .NSM⟩,
   ⟨0x105A, 0x105D, .L⟩, ⟨0x105E, 0x1060, .NSM⟩, ⟨0x1061, 0x1070, .L⟩, ⟨0x1071, 0x1074, .NSM⟩,
   ⟨0x1075, 0x1081, .L⟩, ⟨0x1082, 0x1082, .NSM⟩, ⟨0x1083, 0x1084, .L⟩, ⟨0x1085, 0x1086, .NSM⟩,
   ⟨0x1087, 0x108C, .L⟩, ⟨0x108D, 0x108D, .NSM⟩, ⟨0x108E, 0x109C, .L⟩, ⟨0x109D, 0x109D, .NSM⟩,
   ⟨0x109E, 0x10C5, .L⟩, ⟨0x10C7, 0x10C7, .L⟩, ⟨0x10CD, 0x10CD, .L⟩, ⟨0x10D0, 0x1248, .L⟩,
   ⟨0x124A, 0x124D, .L⟩, ⟨0x1250, 0x1256, .L⟩, ⟨0x1258, 0x1258, .L⟩, ⟨0x125A, 0x125D, .L⟩,
   ⟨0x1260, 0x1288, .L⟩, ⟨0x128A, 0x128D, .L⟩, ⟨0x1290, 0x12B0, .L⟩, ⟨0x12B2, 0x12B5, .L⟩,
   ⟨0x12B8, 0x12BE, .L⟩, ⟨0x12C0, 0x12C0, .L⟩, ⟨0x12C2, 0x12C5, .L⟩, ⟨0x12C8, 0x12D6, .L⟩,
   ⟨0x12D8, 0x1310, .L⟩, ⟨0x1312, 0x1315, .L⟩, ⟨0x1318, 0x135A, .L⟩, ⟨0x135D, 0x135F, .NSM⟩,
   ⟨0x1360, 0x137C, .L⟩, ⟨0x1380, 0x138F, .L⟩, ⟨0x1390, 0x1399, .ON⟩, ⟨0x13A0, 0x13F5, .L⟩,
   ⟨0x13F8, 0x13FD, .L⟩, ⟨0x1400, 0x1400, .ON⟩]

private def classRanges3 : List ClassRange :=
  [⟨0x1401, 0x167F, .L⟩, ⟨0x1680, 0x1680, .WS⟩, ⟨0x1681, 0x169A, .L⟩, ⟨0x169B, 0x169C, .ON⟩,
   ⟨0x16A0, 0x16F8, .L⟩, ⟨0x1700, 0x1711, .L⟩, ⟨0x1712, 0x1714, .NSM⟩, ⟨0x1715, 0x1715, .L⟩,
   ⟨0x171F, 0x1731, .L⟩, ⟨0x1732, 0x1733, .NSM⟩, ⟨0x1734, 0x1736, .L⟩, ⟨0x1740, 0x1751, .L⟩,
   ⟨0x1752, 0x1753, .NSM⟩, ⟨0x1760, 0x176C, .L⟩, ⟨0x176E, 0x1770, .L⟩, ⟨0x1772, 0x1773, .NSM⟩,
   ⟨0x1780, 0x17B3, .L⟩, ⟨0x17B4, 0x17B5, .NSM⟩, ⟨0x17B6, 0x17B6, .L⟩, ⟨0x17B7, 0x17BD, .NSM⟩,
   ⟨0x17BE, 0x17C5, .L⟩, ⟨0x17C6, 0x17C6, .NSM⟩, ⟨0x17C7, 0x17C8, .L⟩, ⟨0x17C9, 0x17D3, .NSM⟩,
   ⟨0x17D4, 0x17DA, .L⟩, ⟨0x17DB, 0x17DB, .ET⟩, ⟨0x17DC, 0x17DC, .L⟩, ⟨0x17DD, 0x17DD, .NSM⟩,
   ⟨0x17E0, 0x17E9, .L⟩, ⟨0x17F0, 0x17F9, .ON⟩, ⟨0x1800, 0x180A, .ON⟩, ⟨0x180B, 0x180D, .NSM⟩,
   ⟨0x180E, 0x180E, .BN⟩, ⟨0x180F, 0x180F, .NSM⟩, ⟨0x1810, 0x1819, .L⟩, ⟨0x1820, 0x1878, .L⟩,
   ⟨0x1880, 0x1884, .L⟩, ⟨0x1885, 0x1886, .NSM⟩, ⟨0x1887, 0x18A8, .L⟩, ⟨0x18A9, 0x18A9, .NSM⟩,
   ⟨0x18AA, 0x18AA, .L⟩, ⟨0x18B0, 0x18F5, .L⟩, ⟨0x1900, 0x191E, .L⟩, ⟨0x1920, 0x1922, .NSM⟩,
   ⟨0x1923, 0x1926, .L⟩, ⟨0x1927, 0x1928, .NSM⟩, ⟨0x1929, 0x192B, .L⟩, ⟨0x1930, 0x1931, .L⟩,
   ⟨0x1932, 0x1932, .NSM⟩, ⟨0x1933, 0x1938, .L⟩, ⟨0x1939, 0x193B, .NSM⟩, ⟨0x1940, 0x1940, .ON⟩,
   ⟨0x1944, 0x1945, .ON⟩, ⟨0x1946, 0x196D, .L⟩, ⟨0x1970, 0x1974, .L⟩, ⟨0x1980, 0x19AB, .L⟩,
   ⟨0x19B0, 0x19C9, .L⟩, ⟨0x19D0, 0x19DA, .L⟩, ⟨0x19DE, 0x19FF, .ON⟩, ⟨0x1A00, 0x1A16, .L⟩,
   ⟨0x1A17, 0x1A18, .NSM⟩, ⟨0x1A19, 0x1A1A, .L⟩, ⟨0x1A1B, 0x1A1B, .NSM⟩, ⟨0x1A1E, 0x1A55, .L⟩,
   ⟨0x1A56, 0x1A56, .NSM⟩, ⟨0x1A57, 0x1A57, .L⟩, ⟨0x1A58, 0x1A5E, .NSM⟩, ⟨0x1A60, 0x1A60, .NSM⟩,
   ⟨0x1A61, 0x1A61, .L⟩, ⟨0x1A62, 0x1A62, .NSM⟩, ⟨0x1A63, 0x1A64, .L⟩, ⟨0x1A65, 0x1A6C, .NSM⟩,
   ⟨0x1A6D, 0x1A72, .L⟩, ⟨0x1A73, 0x1A7C, .NSM⟩, ⟨0x1A7F, 0x1A7F, .NSM⟩, ⟨0x1A80, 0x1A89, .L⟩,
   ⟨0x1A90, 0x1A99, .L⟩, ⟨0x1AA0, 0x1AAD, .L⟩, ⟨0x1AB0, 0x1ACE, .NSM⟩, ⟨0x1B00, 0x1B03, .NSM⟩,
   ⟨0x1B04, 0x1B33, .L⟩, ⟨0x1B34, 0x1B34, .NSM⟩, ⟨0x1B35, 0x1B35, .L⟩, ⟨0x1B36, 0x1B3A, .NSM⟩,
   ⟨0x1B3B, 0x1B3B, .L⟩, ⟨0x1B3C, 0x1B3C, .NSM⟩, ⟨0x1B3D, 0x1B41, .L⟩, ⟨0x1B42, 0x1B42, .NSM⟩,
   ⟨0x1B43, 0x1B4C, .L⟩, ⟨0x1B50, 0x1B6A, .L⟩, ⟨0x1B6B, 0x1B73, .NSM⟩, ⟨0x1B74, 0x1B7E, .L⟩,
   ⟨0x1B80, 0x1B81, .NSM⟩, ⟨0x1B82, 0x1BA1, .L⟩, ⟨0x1BA2, 0x1BA5, .NSM⟩, ⟨0x1BA6, 0x1BA7, .L⟩,
   ⟨0x1BA8, 0x1BA9, .NSM⟩, ⟨0x1BAA, 0x1BAA, .L⟩, ⟨0x1BAB, 0x1BAD, .NSM⟩, ⟨0x1BAE, 0x1BE5, .L⟩,
   ⟨0x1BE6, 0x1BE6, .NSM⟩, ⟨0x1BE7, 0x1BE7, .L⟩, ⟨0x1BE8, 0x1BE9, .NSM⟩, ⟨0x1BEA, 0x1BEC, .L⟩,
   ⟨0x1BED, 0x1BED, .NSM⟩, ⟨0x1BEE, 0x1BEE, .L⟩, ⟨0x1BEF, 0x1BF1, .NSM⟩, ⟨0x1BF2, 0x1BF3, .L⟩,
   ⟨0x1BFC, 0x1C2B, .L⟩, ⟨0x1C2C, 0x1C33, .NSM⟩, ⟨0x1C34, 0x1C35, .L⟩, ⟨0x1C36, 0x1C37, .NSM⟩,
   ⟨0x1C3B, 0x1C49, .L⟩, ⟨0x1C4D, 0x1C88, .L⟩, ⟨0x1C90, 0x1CBA, .L⟩, ⟨0x1CBD, 0x1CC7, .L⟩,
   ⟨0x1CD0, 0x1CD2, .NSM⟩, ⟨0x1CD3, 0x1CD3, .L⟩, ⟨0x1CD4, 0x1CE0, .NSM⟩, ⟨0x1CE1, 0x1CE1, .L⟩,
   ⟨0x1CE2, 0x1CE8, .NSM⟩, ⟨0x1CE9, 0x1CEC, .L⟩, ⟨0x1CED, 0x1CED, .NSM⟩, ⟨0x1CEE, 0x1CF3, .L⟩,
   ⟨0x1CF4, 0x1CF4, .NSM⟩, ⟨0x1CF5, 0x1CF7, .L⟩, ⟨0x1CF8, 0x1CF9, .NSM⟩, ⟨0x1CFA, 0x1CFA, .L⟩,
   ⟨0x1D00, 0x1DBF, .L⟩, ⟨0x1DC0, 0x1DFF, .NSM⟩, ⟨0x1E00, 0x1F15, .L⟩, ⟨0x1F18, 0x1F1D, .L⟩,
   ⟨0x1F20, 0x1F45, .L⟩, ⟨0x1F48, 0x1F4D, .L⟩, ⟨0x1F50, 0x1F57, .L⟩, ⟨0x1F59, 0x1F59, .L⟩,
   ⟨0x1F5B, 0x1F5B, .L⟩, ⟨0x1F5D, 0x1F5D, .L⟩, ⟨0x1F5F, 0x1F7D, .L⟩, ⟨0x1F80, 0x1FB4, .L⟩,
   ⟨0x1FB6, 0x1FBC, .L⟩, ⟨0x1FBD, 0x1FBD, .ON⟩, ⟨0x1FBE, 0x1FBE, .L⟩, ⟨0x1FBF, 0x1FC1, .ON⟩,
   ⟨0x1FC2, 0x1FC4, .L⟩, ⟨0x1FC6, 0x1FCC, .L⟩, ⟨0x1FCD, 0x1FCF, .ON⟩, ⟨0x1FD0, 0x1FD3, .L⟩,
   ⟨0x1FD6, 0x1FDB, .L⟩, ⟨0x1FDD, 0x1FDF, .ON⟩, ⟨0x1FE0, 0x1FEC, .L⟩, ⟨0x1FED, 0x1FEF, .ON⟩,
   ⟨0x1FF2, 0x1FF4, .L⟩, ⟨0x1FF6, 0x1FFC, .L⟩, ⟨0x1FFD, 0x1FFE, .ON⟩, ⟨0x2000, 0x200A, .WS⟩,
   ⟨0x200B, 0x200D, .BN⟩, ⟨0x200E, 0x200E, .L⟩, ⟨0x200F, 0x200F, .R⟩, ⟨0x2010, 0x2027, .ON⟩,
   ⟨0x2028, 0x2028, .WS⟩, ⟨0x2029, 0x2029, .B⟩, ⟨0x202A, 0x202A, .LRE⟩, ⟨0x202B, 0x202B, .RLE⟩,
   ⟨0x202C, 0x202C, .PDF⟩, ⟨0x202D, 0x202D, .LRO⟩, ⟨0x202E, 0x202E, .RLO⟩, ⟨0x202F, 0x202F, .CS⟩,
   ⟨0x2030, 0x2034, .ET⟩, ⟨0x2035, 0x2043, .ON⟩, ⟨0x2044, 0x2044, .CS⟩, ⟨0x2045, 0x205E, .ON⟩,
   ⟨0x205F, 0x205F, .WS⟩, ⟨0x2060, 0x2064, .BN⟩, ⟨0x2066, 0x2066, .LRI⟩, ⟨0x2067, 0x2067, .RLI⟩,
   ⟨0x2068, 0x2068, .FSI⟩, ⟨0x2069, 0x2069, .PDI⟩, ⟨0x206A, 0x206F, .BN⟩, ⟨0x2070, 0x2070, .EN⟩,
   ⟨0x2071, 0x2071, .L⟩, ⟨0x2074, 0x2079, .EN⟩, ⟨0x207A, 0x207B, .ES⟩, ⟨0x207C, 0x207E, .ON⟩,
   ⟨0x207F, 0x207F, .L⟩, ⟨0x2080, 0x2089, .EN⟩, ⟨0x208A, 0x208B, .ES⟩, ⟨0x208C, 0x208E, .ON⟩,
   ⟨0x2090, 0x209C, .L⟩, ⟨0x20A0, 0x20C0, .ET⟩, ⟨0x20D0, 0x20F0, .NSM⟩, ⟨0x2100, 0x2101, .ON⟩,
   ⟨0x2102, 0x2102, .L⟩, ⟨0x2103, 0x2106, .ON⟩, ⟨0x2107, 0x2107, .L⟩, ⟨0x2108, 0x2109, .ON⟩,
   ⟨0x210A, 0x2113, .L⟩, ⟨0x2114, 0x2114, .ON⟩, ⟨0x2115, 0x2115, .L⟩, ⟨0x2116, 0x2118, .ON⟩,
   ⟨0x2119, 0x211D, .L⟩, ⟨0x211E, 0x2123, .ON⟩, ⟨0x2124, 0x2124, .L⟩, ⟨0x2125, 0x2125, .ON⟩,
   ⟨0x2126, 0x2126, .L⟩, ⟨0x2127, 0x2127, .ON⟩, ⟨0x2128, 0x2128, .L⟩, ⟨0x2129, 0x2129, .ON⟩,
   ⟨0x212A, 0x212D, .L⟩, ⟨0x212E, 0x212E, .ET⟩, ⟨0x212F, 0x2139, .L⟩, ⟨0x213A, 0x213B, .ON⟩,
   ⟨0x213C, 0x213F, .L⟩, ⟨0x2140, 0x2144, .ON⟩, ⟨0x2145, 0x2149, .L⟩, ⟨0x214A, 0x214D, .ON⟩,
   ⟨0x214E, 0x214F, .L⟩, ⟨0x2150, 0x215F, .ON⟩, ⟨0x2160, 0x2188, .L⟩, ⟨0x2189, 0x218B, .ON⟩]

private def classRanges4 : List ClassRange :=
  [⟨0x2190, 0x2211, .ON⟩, ⟨0x2212, 0x2212, .ES⟩, ⟨0x2213, 0x2213, .ET⟩, ⟨0x2214, 0x2335, .ON⟩,
   ⟨0x2336, 0x237A, .L⟩, ⟨0x237B, 0x2394, .ON⟩, ⟨0x2395, 0x2395, .L⟩, ⟨0x2396, 0x2426, .ON⟩,
   ⟨0x2440, 0x244A, .ON⟩, ⟨0x2460, 0x2487, .ON⟩, ⟨0x2488, 0x249B, .EN⟩, ⟨0x249C, 0x24E9, .L⟩,
   ⟨0x24EA, 0x26AB, .ON⟩, ⟨0x26AC, 0x26AC, .L⟩, ⟨0x26AD, 0x27FF, .ON⟩, ⟨0x2800, 0x28FF, .L⟩,
   ⟨0x2900, 0x2B73, .ON⟩, ⟨0x2B76, 0x2B95, .ON⟩, ⟨0x2B97, 0x2BFF, .ON⟩, ⟨0x2C00, 0x2CE4, .L⟩,
   ⟨0x2CE5, 0x2CEA, .ON⟩, ⟨0x2CEB, 0x2CEE, .L⟩, ⟨0x2CEF, 0x2CF1, .NSM⟩, ⟨0x2CF2, 0x2CF3, .L⟩,
   ⟨0x2CF9, 0x2CFF, .ON⟩, ⟨0x2D00, 0x2D25, .L⟩, ⟨0x2D27, 0x2D27, .L⟩, ⟨0x2D2D, 0x2D2D, .L⟩,
   ⟨0x2D30, 0x2D67, .L⟩, ⟨0x2D6F, 0x2D70, .L⟩, ⟨0x2D7F, 0x2D7F, .NSM⟩, ⟨0x2D80, 0x2D96, .L⟩,
   ⟨0x2DA0, 0x2DA6, .L⟩, ⟨0x2DA8, 0x2DAE, .L⟩, ⟨0x2DB0, 0x2DB6, .L⟩, ⟨0x2DB8, 0x2DBE, .L⟩,
   ⟨0x2DC0, 0x2DC6, .L⟩, ⟨0x2DC8, 0x2DCE, .L⟩, ⟨0x2DD0, 0x2DD6, .L⟩, ⟨0x2DD8, 0x2DDE, .L⟩,
   ⟨0x2DE0, 0x2DFF, .NSM⟩, ⟨0x2E00, 0x2E5D, .ON⟩, ⟨0x2E80, 0x2E99, .ON⟩, ⟨0x2E9B, 0x2EF3, .ON⟩,
   ⟨0x2F00, 0x2FD5, .ON⟩, ⟨0x2FF0, 0x2FFB, .ON⟩, ⟨0x3000, 0x3000, .WS⟩, ⟨0x3001, 0x3004, .ON⟩,
   ⟨0x3005, 0x3007, .L⟩, ⟨0x3008, 0x3020, .ON⟩, ⟨0x3021, 0x3029, .L⟩, ⟨0x302A, 0x302D, .NSM⟩,
   ⟨0x302E, 0x302F, .L⟩, ⟨0x3030, 0x3030, .ON⟩, ⟨0x3031, 0x3035, .L⟩, ⟨0x3036, 0x3037, .ON⟩,
   ⟨0x3038, 0x303C, .L⟩, ⟨0x303D, 0x303F, .ON⟩, ⟨0x3041, 0x3096, .L⟩, ⟨0x3099, 0x309A, .NSM⟩,
   ⟨0x309B, 0x309C, .ON⟩, ⟨0x309D, 0x309F, .L⟩, ⟨0x30A0, 0x30A0, .ON⟩, ⟨0x30A1, 0x30FA, .L⟩,
   ⟨0x30FB, 0x30FB, .ON⟩, ⟨0x30FC, 0x30FF, .L⟩, ⟨0x3105, 0x312F, .L⟩, ⟨0x3131, 0x318E, .L⟩,
   ⟨0x3190, 0x31BF, .L⟩, ⟨0x31C0, 0x31E3, .ON⟩, ⟨0x31F0, 0x321C, .L⟩, ⟨0x321D, 0x321E, .ON⟩,
   ⟨0x3220, 0x324F, .L⟩, ⟨0x3250, 0x325F, .ON⟩, ⟨0x3260, 0x327B, .L⟩, ⟨0x327C, 0x327E, .ON⟩,
   ⟨0x327F, 0x32B0, .L⟩, ⟨0x32B1, 0x32BF, .ON⟩, ⟨0x32C0, 0x32CB, .L⟩, ⟨0x32CC, 0x32CF, .ON⟩,
   ⟨0x32D0, 0x3376, .L⟩, ⟨0x3377, 0x337A, .ON⟩, ⟨0x337B, 0x33DD, .L⟩, ⟨0x33DE, 0x33DF, .ON⟩,
   ⟨0x33E0, 0x33FE, .L⟩, ⟨0x33FF, 0x33FF, .ON⟩, ⟨0x3400, 0x4DBF, .L⟩, ⟨0x4DC0, 0x4DFF, .ON⟩,
   ⟨0x4E00, 0xA48C, .L⟩, ⟨0xA490, 0xA4C6, .ON⟩, ⟨0xA4D0, 0xA60C, .L⟩, ⟨0xA60D, 0xA60F, .ON⟩,
   ⟨0xA610, 0xA62B, .L⟩, ⟨0xA640, 0xA66E, .L⟩, ⟨0xA66F, 0xA672, .NSM⟩, ⟨0xA673, 0xA673, .ON⟩,
   ⟨0xA674, 0xA67D, .NSM⟩, ⟨0xA67E, 0xA67F, .ON⟩, ⟨0xA680, 0xA69D, .L⟩, ⟨0xA69E, 0xA69F, .NSM⟩,
   ⟨0xA6A0, 0xA6EF, .L⟩, ⟨0xA6F0, 0xA6F1, .NSM⟩, ⟨0xA6F2, 0xA6F7, .L⟩, ⟨0xA700, 0xA721, .ON⟩,
   ⟨0xA722, 0xA787, .L⟩, ⟨0xA788, 0xA788, .ON⟩, ⟨0xA789, 0xA7CA, .L⟩, ⟨0xA7D0, 0xA7D1, .L⟩,
   ⟨0xA7D3, 0xA7D3, .L⟩, ⟨0xA7D5, 0xA7D9, .L⟩, ⟨0xA7F2, 0xA801, .L⟩, ⟨0xA802, 0xA802, .NSM⟩,
   ⟨0xA803, 0xA805, .L⟩, ⟨0xA806, 0xA806, .NSM⟩, ⟨0xA807, 0xA80A, .L⟩, ⟨0xA80B, 0xA80B, .NSM⟩,
   ⟨0xA80C, 0xA824, .L⟩, ⟨0xA825, 0xA826, .NSM⟩, ⟨0xA827, 0xA827, .L⟩, ⟨0xA828, 0xA82B, .ON⟩,
   ⟨0xA82C, 0xA82C, .NSM⟩, ⟨0xA830, 0xA837, .L⟩, ⟨0xA838, 0xA839, .ET⟩, ⟨0xA840, 0xA873, .L⟩,
   ⟨0xA874, 0xA877, .ON⟩, ⟨0xA880, 0xA8C3, .L⟩, ⟨0xA8C4, 0xA8C5, .NSM⟩, ⟨0xA8CE, 0xA8D9, .L⟩,
   ⟨0xA8E0, 0xA8F1, .NSM⟩, ⟨0xA8F2, 0xA8FE, .L⟩, ⟨0xA8FF, 0xA8FF, .NSM⟩, ⟨0xA900, 0xA925, .L⟩,
   ⟨0xA926, 0xA92D, .NSM⟩, ⟨0xA92E, 0xA946, .L⟩, ⟨0xA947, 0xA951, .NSM⟩, ⟨0xA952, 0xA953, .L⟩,
   ⟨0xA95F, 0xA97C, .L⟩, ⟨0xA980, 0xA982, .NSM⟩, ⟨0xA983, 0xA9B2, .L⟩, ⟨0xA9B3, 0xA9B3, .NSM⟩,
   ⟨0xA9B4, 0xA9B5, .L⟩, ⟨0xA9B6, 0xA9B9, .NSM⟩, ⟨0xA9BA, 0xA9BB, .L⟩, ⟨0xA9BC, 0xA9BD, .NSM⟩,
   ⟨0xA9BE, 0xA9CD, .L⟩, ⟨0xA9CF, 0xA9D9, .L⟩, ⟨0xA9DE, 0xA9E4, .L⟩, ⟨0xA9E5, 0xA9E5, .NSM⟩,
   ⟨0xA9E6, 0xA9FE, .L⟩, ⟨0xAA00, 0xAA28, .L⟩, ⟨0xAA29, 0xAA2E, .NSM⟩, ⟨0xAA2F, 0xAA30, .L⟩,
   ⟨0xAA31, 0xAA32, .NSM⟩, ⟨0xAA33, 0xAA34, .L⟩, ⟨0xAA35, 0xAA36, .NSM⟩, ⟨0xAA40, 0xAA42, .L⟩,
   ⟨0xAA43, 0xAA43, .NSM⟩, ⟨0xAA44, 0xAA4B, .L⟩, ⟨0xAA4C, 0xAA4C, .NSM⟩, ⟨0xAA4D, 0xAA4D, .L⟩,
   ⟨0xAA50, 0xAA59, .L⟩, ⟨0xAA5C, 0xAA7B, .L⟩, ⟨0xAA7C, 0xAA7C, .NSM⟩, ⟨0xAA7D, 0xAAAF, .L⟩,
   ⟨0xAAB0, 0xAAB0, .NSM⟩, ⟨0xAAB1, 0xAAB1, .L⟩, ⟨0xAAB2, 0xAAB4, .NSM⟩, ⟨0xAAB5, 0xAAB6, .L⟩,
   ⟨0xAAB7, 0xAAB8, .NSM⟩, ⟨0xAAB9, 0xAABD, .L⟩, ⟨0xAABE, 0xAABF, .NSM⟩, ⟨0xAAC0, 0xAAC0, .L⟩,
   ⟨0xAAC1, 0xAAC1, .NSM⟩, ⟨0xAAC2, 0xAAC2, .L⟩, ⟨0xAADB, 0xAAEB, .L⟩, ⟨0xAAEC, 0xAAED, .NSM⟩,
   ⟨0xAAEE, 0xAAF5, .L⟩, ⟨0xAAF6, 0xAAF6, .NSM⟩, ⟨0xAB01, 0xAB06, .L⟩, ⟨0xAB09, 0xAB0E, .L⟩,
   ⟨0xAB11, 0xAB16, .L⟩, ⟨0xAB20, 0xAB26, .L⟩, ⟨0xAB28, 0xAB2E, .L⟩, ⟨0xAB30, 0xAB69, .L⟩,
   ⟨0xAB6A, 0xAB6B, .ON⟩, ⟨0xAB70, 0xABE4, .L⟩, ⟨0xABE5, 0xABE5, .NSM⟩, ⟨0xABE6, 0xABE7, .L⟩,
   ⟨0xABE8, 0xABE8, .NSM⟩, ⟨0xABE9, 0xABEC, .L⟩, ⟨0xABED, 0xABED, .NSM⟩, ⟨0xABF0, 0xABF9, .L⟩,
   ⟨0xAC00, 0xD7A3, .L⟩, ⟨0xD7B0, 0xD7C6, .L⟩, ⟨0xD7CB, 0xD7FB, .L⟩, ⟨0xE000, 0xFA6D, .L⟩,
   ⟨0xFA70, 0xFAD9, .L⟩, ⟨0xFB00, 0xFB06, .L⟩, ⟨0xFB13, 0xFB17, .L⟩, ⟨0xFB1D, 0xFB1D, .R⟩,
   ⟨0xFB1E, 0xFB1E, .NSM⟩, ⟨0xFB1F, 0xFB28, .R⟩, ⟨0xFB29, 0xFB29, .ES⟩, ⟨0xFB2A, 0xFB36, .R⟩,
   ⟨0xFB38, 0xFB3C, .R⟩, ⟨0xFB3E, 0xFB3E, .R⟩, ⟨0xFB40, 0xFB41, .R⟩, ⟨0xFB43, 0xFB44, .R⟩,
   ⟨0xFB46, 0xFB4F, .R⟩, ⟨0xFB50, 0xFBC2, .AL⟩, ⟨0xFBD3, 0xFD3D, .AL⟩, ⟨0xFD3E, 0xFD4F, .ON⟩,
   ⟨0xFD50, 0xFD8F, .AL⟩, ⟨0xFD92, 0xFDC7, .AL⟩, ⟨0xFDCF, 0xFDCF, .ON⟩, ⟨0xFDF0, 0xFDFC, .AL⟩,
   ⟨0xFDFD, 0xFDFF, .ON⟩, ⟨0xFE00, 0xFE0F, .NSM⟩, ⟨0xFE10, 0xFE19, .ON⟩, ⟨0xFE20, 0xFE2F, .NSM⟩]

private def classRanges5 : List ClassRange :=
  [⟨0xFE30, 0xFE4F, .ON⟩, ⟨0xFE50, 0xFE50, .CS⟩, ⟨0xFE51, 0xFE51, .ON⟩, ⟨0xFE52, 0xFE52, .CS⟩,
   ⟨0xFE54, 0xFE54, .ON⟩, ⟨0xFE55, 0xFE55, .CS⟩, ⟨0xFE56, 0xFE5E, .ON⟩, ⟨0xFE5F, 0xFE5F, .ET⟩,
   ⟨0xFE60, 0xFE61, .ON⟩, ⟨0xFE62, 0xFE63, .ES⟩, ⟨0xFE64, 0xFE66, .ON⟩, ⟨0xFE68, 0xFE68, .ON⟩,
   ⟨0xFE69, 0xFE6A, .ET⟩, ⟨0xFE6B, 0xFE6B, .ON⟩, ⟨0xFE70, 0xFE74, .AL⟩, ⟨0xFE76, 0xFEFC, .AL⟩,
   ⟨0xFEFF, 0xFEFF, .BN⟩, ⟨0xFF01, 0xFF02, .ON⟩, ⟨0xFF03, 0xFF05, .ET⟩, ⟨0xFF06, 0xFF0A, .ON⟩,
   ⟨0xFF0B, 0xFF0B, .ES⟩, ⟨0xFF0C, 0xFF0C, .CS⟩, ⟨0xFF0D, 0xFF0D, .ES⟩, ⟨0xFF0E, 0xFF0F, .CS⟩,
   ⟨0xFF10, 0xFF19, .EN⟩, ⟨0xFF1A, 0xFF1A, .CS⟩, ⟨0xFF1B, 0xFF20, .ON⟩, ⟨0xFF21, 0xFF3A, .L⟩,
   ⟨0xFF3B, 0xFF40, .ON⟩, ⟨0xFF41, 0xFF5A, .L⟩, ⟨0xFF5B, 0xFF65, .ON⟩, ⟨0xFF66, 0xFFBE, .L⟩,
   ⟨0xFFC2, 0xFFC7, .L⟩, ⟨0xFFCA, 0xFFCF, .L⟩, ⟨0xFFD2, 0xFFD7, .L⟩, ⟨0xFFDA, 0xFFDC, .L⟩,
   ⟨0xFFE0, 0xFFE1, .ET⟩, ⟨0xFFE2, 0xFFE4, .ON⟩, ⟨0xFFE5, 0xFFE6, .ET⟩, ⟨0xFFE8, 0xFFEE, .ON⟩,
   ⟨0xFFF9, 0xFFFD, .ON⟩, ⟨0x10000, 0x1000B, .L⟩, ⟨0x1000D, 0x10026, .L⟩, ⟨0x10028, 0x1003A, .L⟩,
   ⟨0x1003C, 0x1003D, .L⟩, ⟨0x1003F, 0x1004D, .L⟩, ⟨0x10050, 0x1005D, .L⟩, ⟨0x10080, 0x100FA, .L⟩,
   ⟨0x10100, 0x10100, .L⟩, ⟨0x10101, 0x10101, .ON⟩, ⟨0x10102, 0x10102, .L⟩, ⟨0x10107, 0x10133, .L⟩,
   ⟨0x10137, 0x1013F, .L⟩, ⟨0x10140, 0x1018C, .ON⟩, ⟨0x1018D, 0x1018E, .L⟩, ⟨0x10190, 0x1019C, .ON⟩,
   ⟨0x101A0, 0x101A0, .ON⟩, ⟨0x101D0, 0x101FC, .L⟩, ⟨0x101FD, 0x101FD, .NSM⟩, ⟨0x10280, 0x1029C, .L⟩,
   ⟨0x102A0, 0x102D0, .L⟩, ⟨0x102E0, 0x102E0, .NSM⟩, ⟨0x102E1, 0x102FB, .EN⟩, ⟨0x10300, 0x10323, .L⟩,
   ⟨0x1032D, 0x1034A, .L⟩, ⟨0x10350, 0x10375, .L⟩, ⟨0x10376, 0x1037A, .NSM⟩, ⟨0x10380, 0x1039D, .L⟩,
   ⟨0x1039F, 0x103C3, .L⟩, ⟨0x103C8, 0x103D5, .L⟩, ⟨0x10400, 0x1049D, .L⟩, ⟨0x104A0, 0x104A9, .L⟩,
   ⟨0x104B0, 0x104D3, .L⟩, ⟨0x104D8, 0x104FB, .L⟩, ⟨0x10500, 0x10527, .L⟩, ⟨0x10530, 0x10563, .L⟩,
   ⟨0x1056F, 0x1057A, .L⟩, ⟨0x1057C, 0x1058A, .L⟩, ⟨0x1058C, 0x10592, .L⟩, ⟨0x10594, 0x10595, .L⟩,
   ⟨0x10597, 0x105A1, .L⟩, ⟨0x105A3, 0x105B1, .L⟩, ⟨0x105B3, 0x105B9, .L⟩, ⟨0x105BB, 0x105BC, .L⟩,
   ⟨0x10600, 0x10736, .L⟩, ⟨0x10740, 0x10755, .L⟩, ⟨0x10760, 0x10767, .L⟩, ⟨0x10780, 0x10785, .L⟩,
   ⟨0x10787, 0x107B0, .L⟩, ⟨0x107B2, 0x107BA, .L⟩, ⟨0x10800, 0x10805, .R⟩, ⟨0x10808, 0x10808, .R⟩,
   ⟨0x1080A, 0x10835, .R⟩, ⟨0x10837, 0x10838, .R⟩, ⟨0x1083C, 0x1083C, .R⟩, ⟨0x1083F, 0x10855, .R⟩,
   ⟨0x10857, 0x1089E, .R⟩, ⟨0x108A7, 0x108AF, .R⟩, ⟨0x108E0, 0x108F2, .R⟩, ⟨0x108F4, 0x108F5, .R⟩,
   ⟨0x108FB, 0x1091B, .R⟩, ⟨0x1091F, 0x1091F, .ON⟩, ⟨0x10920, 0x10939, .R⟩, ⟨0x1093F, 0x1093F, .R⟩,
   ⟨0x10980, 0x109B7, .R⟩, ⟨0x109BC, 0x109CF, .R⟩, ⟨0x109D2, 0x10A00, .R⟩, ⟨0x10A01, 0x10A03, .NSM⟩,
   ⟨0x10A05, 0x10A06, .NSM⟩, ⟨0x10A0C, 0x10A0F, .NSM⟩, ⟨0x10A10, 0x10A13, .R⟩, ⟨0x10A15, 0x10A17, .R⟩,
   ⟨0x10A19, 0x10A35, .R⟩, ⟨0x10A38, 0x10A3A, .NSM⟩, ⟨0x10A3F, 0x10A3F, .NSM⟩, ⟨0x10A40, 0x10A48, .R⟩,
   ⟨0x10A50, 0x10A58, .R⟩, ⟨0x10A60, 0x10A9F, .R⟩, ⟨0x10AC0, 0x10AE4, .R⟩, ⟨0x10AE5, 0x10AE6, .NSM⟩,
   ⟨0x10AEB, 0x10AF6, .R⟩, ⟨0x10B00, 0x10B35, .R⟩, ⟨0x10B39, 0x10B3F, .ON⟩, ⟨0x10B40, 0x10B55, .R⟩,
   ⟨0x10B58, 0x10B72, .R⟩, ⟨0x10B78, 0x10B91, .R⟩, ⟨0x10B99, 0x10B9C, .R⟩, ⟨0x10BA9, 0x10BAF, .R⟩,
   ⟨0x10C00, 0x10C48, .R⟩, ⟨0x10C80, 0x10CB2, .R⟩, ⟨0x10CC0, 0x10CF2, .R⟩, ⟨0x10CFA, 0x10CFF, .R⟩,
   ⟨0x10D00, 0x10D23, .AL⟩, ⟨0x10D24, 0x10D27, .NSM⟩, ⟨0x10D30, 0x10D39, .AN⟩, ⟨0x10E60, 0x10E7E, .AN⟩,
   ⟨0x10E80, 0x10EA9, .R⟩, ⟨0x10EAB, 0x10EAC, .NSM⟩, ⟨0x10EAD, 0x10EAD, .R⟩, ⟨0x10EB0, 0x10EB1, .R⟩,
   ⟨0x10F00, 0x10F27, .R⟩, ⟨0x10F30, 0x10F45, .AL⟩, ⟨0x10F46, 0x10F50, .NSM⟩, ⟨0x10F51, 0x10F59, .AL⟩,
   ⟨0x10F70, 0x10F81, .R⟩, ⟨0x10F82, 0x10F85, .NSM⟩, ⟨0x10F86, 0x10F89, .R⟩, ⟨0x10FB0, 0x10FCB, .R⟩,
   ⟨0x10FE0, 0x10FF6, .R⟩, ⟨0x11000, 0x11000, .L⟩, ⟨0x11001, 0x11001, .NSM⟩, ⟨0x11002, 0x11037, .L⟩,
   ⟨0x11038, 0x11046, .NSM⟩, ⟨0x11047, 0x1104D, .L⟩, ⟨0x11052, 0x11065, .ON⟩, ⟨0x11066, 0x1106F, .L⟩,
   ⟨0x11070, 0x11070, .NSM⟩, ⟨0x11071, 0x11072, .L⟩, ⟨0x11073, 0x11074, .NSM⟩, ⟨0x11075, 0x11075, .L⟩,
   ⟨0x1107F, 0x11081, .NSM⟩, ⟨0x11082, 0x110B2, .L⟩, ⟨0x110B3, 0x110B6, .NSM⟩, ⟨0x110B7, 0x110B8, .L⟩,
   ⟨0x110B9, 0x110BA, .NSM⟩, ⟨0x110BB, 0x110C1, .L⟩, ⟨0x110C2, 0x110C2, .NSM⟩, ⟨0x110CD, 0x110CD, .L⟩,
   ⟨0x110D0, 0x110E8, .L⟩, ⟨0x110F0, 0x110F9, .L⟩, ⟨0x11100, 0x11102, .NSM⟩, ⟨0x11103, 0x11126, .L⟩,
   ⟨0x11127, 0x1112B, .NSM⟩, ⟨0x1112C, 0x1112C, .L⟩, ⟨0x1112D, 0x11134, .NSM⟩, ⟨0x11136, 0x11147, .L⟩,
   ⟨0x11150, 0x11172, .L⟩, ⟨0x11173, 0x11173, .NSM⟩, ⟨0x11174, 0x11176, .L⟩, ⟨0x11180, 0x11181, .NSM⟩,
   ⟨0x11182, 0x111B5, .L⟩, ⟨0x111B6, 0x111BE, .NSM⟩, ⟨0x111BF, 0x111C8, .L⟩, ⟨0x111C9, 0x111CC, .NSM⟩,
   ⟨0x111CD, 0x111CE, .L⟩, ⟨0x111CF, 0x111CF, .NSM⟩, ⟨0x111D0, 0x111DF, .L⟩, ⟨0x111E1, 0x111F4, .L⟩,
   ⟨0x11200, 0x11211, .L⟩, ⟨0x11213, 0x1122E, .L⟩, ⟨0x1122F, 0x11231, .NSM⟩, ⟨0x11232, 0x11233, .L⟩,
   ⟨0x11234, 0x11234, .NSM⟩, ⟨0x11235, 0x11235, .L⟩, ⟨0x11236, 0x11237, .NSM⟩, ⟨0x11238, 0x1123D, .L⟩,
   ⟨0x1123E, 0x1123E, .NSM⟩, ⟨0x11280, 0x11286, .L⟩, ⟨0x11288, 0x11288, .L⟩, ⟨0x1128A, 0x1128D, .L⟩,
   ⟨0x1128F, 0x1129D, .L⟩, ⟨0x1129F, 0x112A9, .L⟩, ⟨0x112B0, 0x112DE, .L⟩, ⟨0x112DF, 0x112DF, .NSM⟩,
   ⟨0x112E0, 0x112E2, .L⟩, ⟨0x112E3, 0x112EA, .NSM⟩, ⟨0x112F0, 0x112F9, .L⟩, ⟨0x11300, 0x11301, .NSM⟩,
   ⟨0x11302, 0x11303, .L⟩, ⟨0x11305, 0x1130C, .L⟩, ⟨0x1130F, 0x11310, .L⟩, ⟨0x11313, 0x11328, .L⟩,
   ⟨0x1132A, 0x11330, .L⟩, ⟨0x11332, 0x11333, .L⟩, ⟨0x11335, 0x11339, .L⟩, ⟨0x1133B, 0x1133C, .NSM⟩,
   ⟨0x1133D, 0x1133F, .L⟩, ⟨0x11340, 0x11340, .NSM⟩, ⟨0x11341, 0x11344, .L⟩, ⟨0x11347, 0x11348, .L⟩]

private def classRanges6 : List ClassRange :=
  [⟨0x1134B, 0x1134D, .L⟩, ⟨0x11350, 0x11350, .L⟩, ⟨0x11357, 0x11357, .L⟩, ⟨0x1135D, 0x11363, .L⟩,
   ⟨0x11366, 0x1136C, .NSM⟩, ⟨0x11370, 0x11374, .NSM⟩, ⟨0x11400, 0x11437, .L⟩, ⟨0x11438, 0x1143F, .NSM⟩,
   ⟨0x11440, 0x11441, .L⟩, ⟨0x11442, 0x11444, .NSM⟩, ⟨0x11445, 0x11445, .L⟩, ⟨0x11446, 0x11446, .NSM⟩,
   ⟨0x11447, 0x1145B, .L⟩, ⟨0x1145D, 0x1145D, .L⟩, ⟨0x1145E, 0x1145E, .NSM⟩, ⟨0x1145F, 0x11461, .L⟩,
   ⟨0x11480, 0x114B2, .L⟩, ⟨0x114B3, 0x114B8, .NSM⟩, ⟨0x114B9, 0x114B9, .L⟩, ⟨0x114BA, 0x114BA, .NSM⟩,
   ⟨0x114BB, 0x114BE, .L⟩, ⟨0x114BF, 0x114C0, .NSM⟩, ⟨0x114C1, 0x114C1, .L⟩, ⟨0x114C2, 0x114C3, .NSM⟩,
   ⟨0x114C4, 0x114C7, .L⟩, ⟨0x114D0, 0x114D9, .L⟩, ⟨0x11580, 0x115B1, .L⟩, ⟨0x115B2, 0x115B5, .NSM⟩,
   ⟨0x115B8, 0x115BB, .L⟩, ⟨0x115BC, 0x115BD, .NSM⟩, ⟨0x115BE, 0x115BE, .L⟩, ⟨0x115BF, 0x115C0, .NSM⟩,
   ⟨0x115C1, 0x115DB, .L⟩, ⟨0x115DC, 0x115DD, .NSM⟩, ⟨0x11600, 0x11632, .L⟩, ⟨0x11633, 0x1163A, .NSM⟩,
   ⟨0x1163B, 0x1163C, .L⟩, ⟨0x1163D, 0x1163D, .NSM⟩, ⟨0x1163E, 0x1163E, .L⟩, ⟨0x1163F, 0x11640, .NSM⟩,
   ⟨0x11641, 0x11644, .L⟩, ⟨0x11650, 0x11659, .L⟩, ⟨0x11660, 0x1166C, .ON⟩, ⟨0x11680, 0x116AA, .L⟩,
   ⟨0x116AB, 0x116AB, .NSM⟩, ⟨0x116AC, 0x116AC, .L⟩, ⟨0x116AD, 0x116AD, .NSM⟩, ⟨0x116AE, 0x116AF, .L⟩,
   ⟨0x116B0, 0x116B5, .NSM⟩, ⟨0x116B6, 0x116B6, .L⟩, ⟨0x116B7, 0x116B7, .NSM⟩, ⟨0x116B8, 0x116B9, .L⟩,
   ⟨0x116C0, 0x116C9, .L⟩, ⟨0x11700, 0x1171A, .L⟩, ⟨0x1171D, 0x1171F, .NSM⟩, ⟨0x11720, 0x11721, .L⟩,
   ⟨0x11722, 0x11725, .NSM⟩, ⟨0x11726, 0x11726, .L⟩, ⟨0x11727, 0x1172B, .NSM⟩, ⟨0x11730, 0x11746, .L⟩,
   ⟨0x11800, 0x1182E, .L⟩, ⟨0x1182F, 0x11837, .NSM⟩, ⟨0x11838, 0x11838, .L⟩, ⟨0x11839, 0x1183A, .NSM⟩,
   ⟨0x1183B, 0x1183B, .L⟩, ⟨0x118A0, 0x118F2, .L⟩, ⟨0x118FF, 0x11906, .L⟩, ⟨0x11909, 0x11909, .L⟩,
   ⟨0x1190C, 0x11913, .L⟩, ⟨0x11915, 0x11916, .L⟩, ⟨0x11918, 0x11935, .L⟩, ⟨0x11937, 0x11938, .L⟩,
   ⟨0x1193B, 0x1193C, .NSM⟩, ⟨0x1193D, 0x1193D, .L⟩, ⟨0x1193E, 0x1193E, .NSM⟩, ⟨0x1193F, 0x11942, .L⟩,
   ⟨0x11943, 0x11943, .NSM⟩, ⟨0x11944, 0x11946, .L⟩, ⟨0x11950, 0x11959, .L⟩, ⟨0x119A0, 0x119A7, .L⟩,
   ⟨0x119AA, 0x119D3, .L⟩, ⟨0x119D4, 0x119D7, .NSM⟩, ⟨0x119DA, 0x119DB, .NSM⟩, ⟨0x119DC, 0x119DF, .L⟩,
   ⟨0x119E0, 0x119E0, .NSM⟩, ⟨0x119E1, 0x119E4, .L⟩, ⟨0x11A00, 0x11A00, .L⟩, ⟨0x11A01, 0x11A06, .NSM⟩,
   ⟨0x11A07, 0x11A08, .L⟩, ⟨0x11A09, 0x11A0A, .NSM⟩, ⟨0x11A0B, 0x11A32, .L⟩, ⟨0x11A33, 0x11A38, .NSM⟩,
   ⟨0x11A39, 0x11A3A, .L⟩, ⟨0x11A3B, 0x11A3E, .NSM⟩, ⟨0x11A3F, 0x11A46, .L⟩, ⟨0x11A47, 0x11A47, .NSM⟩,
   ⟨0x11A50, 0x11A50, .L⟩, ⟨0x11A51, 0x11A56, .NSM⟩, ⟨0x11A57, 0x11A58, .L⟩, ⟨0x11A59, 0x11A5B, .NSM⟩,
   ⟨0x11A5C, 0x11A89, .L⟩, ⟨0x11A8A, 0x11A96, .NSM⟩, ⟨0x11A97, 0x11A97, .L⟩, ⟨0x11A98, 0x11A99, .NSM⟩,
   ⟨0x11A9A, 0x11AA2, .L⟩, ⟨0x11AB0, 0x11AF8, .L⟩, ⟨0x11C00, 0x11C08, .L⟩, ⟨0x11C0A, 0x11C2F, .L⟩,
   ⟨0x11C30, 0x11C36, .NSM⟩, ⟨0x11C38, 0x11C3D, .NSM⟩, ⟨0x11C3E, 0x11C45, .L⟩, ⟨0x11C50, 0x11C6C, .L⟩,
   ⟨0x11C70, 0x11C8F, .L⟩, ⟨0x11C92, 0x11CA7, .NSM⟩, ⟨0x11CA9, 0x11CA9, .L⟩, ⟨0x11CAA, 0x11CB0, .NSM⟩,
   ⟨0x11CB1, 0x11CB1, .L⟩, ⟨0x11CB2, 0x11CB3, .NSM⟩, ⟨0x11CB4, 0x11CB4, .L⟩, ⟨0x11CB5, 0x11CB6, .NSM⟩,
   ⟨0x11D00, 0x11D06, .L⟩, ⟨0x11D08, 0x11D09, .L⟩, ⟨0x11D0B, 0x11D30, .L⟩, ⟨0x11D31, 0x11D36, .NSM⟩,
   ⟨0x11D3A, 0x11D3A, .NSM⟩, ⟨0x11D3C, 0x11D3D, .NSM⟩, ⟨0x11D3F, 0x11D45, .NSM⟩, ⟨0x11D46, 0x11D46, .L⟩,
   ⟨0x11D47, 0x11D47, .NSM⟩, ⟨0x11D50, 0x11D59, .L⟩, ⟨0x11D60, 0x11D65, .L⟩, ⟨0x11D67, 0x11D68, .L⟩,
   ⟨0x11D6A, 0x11D8E, .L⟩, ⟨0x11D90, 0x11D91, .NSM⟩, ⟨0x11D93, 0x11D94, .L⟩, ⟨0x11D95, 0x11D95, .NSM⟩,
   ⟨0x11D96, 0x11D96, .L⟩, ⟨0x11D97, 0x11D97, .NSM⟩, ⟨0x11D98, 0x11D98, .L⟩, ⟨0x11DA0, 0x11DA9, .L⟩,
   ⟨0x11EE0, 0x11EF2, .L⟩, ⟨0x11EF3, 0x11EF4, .NSM⟩, ⟨0x11EF5, 0x11EF8, .L⟩, ⟨0x11FB0, 0x11FB0, .L⟩,
   ⟨0x11FC0, 0x11FD4, .L⟩, ⟨0x11FD5, 0x11FDC, .ON⟩, ⟨0x11FDD, 0x11FE0, .ET⟩, ⟨0x11FE1, 0x11FF1, .ON⟩,
   ⟨0x11FFF, 0x12399, .L⟩, ⟨0x12400, 0x1246E, .L⟩, ⟨0x12470, 0x12474, .L⟩, ⟨0x12480, 0x12543, .L⟩,
   ⟨0x12F90, 0x12FF2, .L⟩, ⟨0x13000, 0x1342E, .L⟩, ⟨0x13430, 0x13438, .L⟩, ⟨0x14400, 0x14646, .L⟩,
   ⟨0x16800, 0x16A38, .L⟩, ⟨0x16A40, 0x16A5E, .L⟩, ⟨0x16A60, 0x16A69, .L⟩, ⟨0x16A6E, 0x16ABE, .L⟩,
   ⟨0x16AC0, 0x16AC9, .L⟩, ⟨0x16AD0, 0x16AED, .L⟩, ⟨0x16AF0, 0x16AF4, .NSM⟩, ⟨0x16AF5, 0x16AF5, .L⟩,
   ⟨0x16B00, 0x16B2F, .L⟩, ⟨0x16B30, 0x16B36, .NSM⟩, ⟨0x16B37, 0x16B45, .L⟩, ⟨0x16B50, 0x16B59, .L⟩,
   ⟨0x16B5B, 0x16B61, .L⟩, ⟨0x16B63, 0x16B77, .L⟩, ⟨0x16B7D, 0x16B8F, .L⟩, ⟨0x16E40, 0x16E9A, .L⟩,
   ⟨0x16F00, 0x16F4A, .L⟩, ⟨0x16F4F, 0x16F4F, .NSM⟩, ⟨0x16F50, 0x16F87, .L⟩, ⟨0x16F8F, 0x16F92, .NSM⟩,
   ⟨0x16F93, 0x16F9F, .L⟩, ⟨0x16FE0, 0x16FE1, .L⟩, ⟨0x16FE2, 0x16FE2, .ON⟩, ⟨0x16FE3, 0x16FE3, .L⟩,
   ⟨0x16FE4, 0x16FE4, .NSM⟩, ⟨0x16FF0, 0x16FF1, .L⟩, ⟨0x17000, 0x187F7, .L⟩, ⟨0x18800, 0x18CD5, .L⟩,
   ⟨0x18D00, 0x18D08, .L⟩, ⟨0x1AFF0, 0x1AFF3, .L⟩, ⟨0x1AFF5, 0x1AFFB, .L⟩, ⟨0x1AFFD, 0x1AFFE, .L⟩,
   ⟨0x1B000, 0x1B122, .L⟩, ⟨0x1B150, 0x1B152, .L⟩, ⟨0x1B164, 0x1B167, .L⟩, ⟨0x1B170, 0x1B2FB, .L⟩,
   ⟨0x1BC00, 0x1BC6A, .L⟩, ⟨0x1BC70, 0x1BC7C, .L⟩, ⟨0x1BC80, 0x1BC88, .L⟩, ⟨0x1BC90, 0x1BC99, .L⟩,
   ⟨0x1BC9C, 0x1BC9C, .L⟩, ⟨0x1BC9D, 0x1BC9E, .NSM⟩, ⟨0x1BC9F, 0x1BC9F, .L⟩, ⟨0x1BCA0, 0x1BCA3, .BN⟩,
   ⟨0x1CF00, 0x1CF2D, .NSM⟩, ⟨0x1CF30, 0x1CF46, .NSM⟩, ⟨0x1CF50, 0x1CFC3, .L⟩, ⟨0x1D000, 0x1D0F5, .L⟩,
   ⟨0x1D100, 0x1D126, .L⟩, ⟨0x1D129, 0x1D166, .L⟩, ⟨0x1D167, 0x1D169, .NSM⟩, ⟨0x1D16A, 0x1D172, .L⟩,
   ⟨0x1D173, 0x1D17A, .BN⟩, ⟨0x1D17B, 0x1D182, .NSM⟩, ⟨0x1D183, 0x1D184, .L⟩, ⟨0x1D185, 0x1D18B, .NSM⟩,
   ⟨0x1D18C, 0x1D1A9, .L⟩, ⟨0x1D1AA, 0x1D1AD, .NSM⟩, ⟨0x1D1AE, 0x1D1E8, .L⟩, ⟨0x1D1E9, 0x1D1EA, .ON⟩,
   ⟨0x1D200, 0x1D241, .ON⟩, ⟨0x1D242, 0x1D244, .NSM⟩, ⟨0x1D245, 0x1D245, .ON⟩, ⟨0x1D2E0, 0x1D2F3, .L⟩]

private def classRanges7 : List ClassRange :=
  [⟨0x1D300, 0x1D356, .ON⟩, ⟨0x1D360, 0x1D378, .L⟩, ⟨0x1D400, 0x1D454, .L⟩, ⟨0x1D456, 0x1D49C, .L⟩,
   ⟨0x1D49E, 0x1D49F, .L⟩, ⟨0x1D4A2, 0x1D4A2, .L⟩, ⟨0x1D4A5, 0x1D4A6, .L⟩, ⟨0x1D4A9, 0x1D4AC, .L⟩,
   ⟨0x1D4AE, 0x1D4B9, .L⟩, ⟨0x1D4BB, 0x1D4BB, .L⟩, ⟨0x1D4BD, 0x1D4C3, .L⟩, ⟨0x1D4C5, 0x1D505, .L⟩,
   ⟨0x1D507, 0x1D50A, .L⟩, ⟨0x1D50D, 0x1D514, .L⟩, ⟨0x1D516, 0x1D51C, .L⟩, ⟨0x1D51E, 0x1D539, .L⟩,
   ⟨0x1D53B, 0x1D53E, .L⟩, ⟨0x1D540, 0x1D544, .L⟩, ⟨0x1D546, 0x1D546, .L⟩, ⟨0x1D54A, 0x1D550, .L⟩,
   ⟨0x1D552, 0x1D6A5, .L⟩, ⟨0x1D6A8, 0x1D6DA, .L⟩, ⟨0x1D6DB, 0x1D6DB, .ON⟩, ⟨0x1D6DC, 0x1D714, .L⟩,
   ⟨0x1D715, 0x1D715, .ON⟩, ⟨0x1D716, 0x1D74E, .L⟩, ⟨0x1D74F, 0x1D74F, .ON⟩, ⟨0x1D750, 0x1D788, .L⟩,
   ⟨0x1D789, 0x1D789, .ON⟩, ⟨0x1D78A, 0x1D7C2, .L⟩, ⟨0x1D7C3, 0x1D7C3, .ON⟩, ⟨0x1D7C4, 0x1D7CB, .L⟩,
   ⟨0x1D7CE, 0x1D7FF, .EN⟩, ⟨0x1D800, 0x1D9FF, .L⟩, ⟨0x1DA00, 0x1DA36, .NSM⟩, ⟨0x1DA37, 0x1DA3A, .L⟩,
   ⟨0x1DA3B, 0x1DA6C, .NSM⟩, ⟨0x1DA6D, 0x1DA74, .L⟩, ⟨0x1DA75, 0x1DA75, .NSM⟩, ⟨0x1DA76, 0x1DA83, .L⟩,
   ⟨0x1DA84, 0x1DA84, .NSM⟩, ⟨0x1DA85, 0x1DA8B, .L⟩, ⟨0x1DA9B, 0x1DA9F, .NSM⟩, ⟨0x1DAA1, 0x1DAAF, .NSM⟩,
   ⟨0x1DF00, 0x1DF1E, .L⟩, ⟨0x1E000, 0x1E006, .NSM⟩, ⟨0x1E008, 0x1E018, .NSM⟩, ⟨0x1E01B, 0x1E021, .NSM⟩,
   ⟨0x1E023, 0x1E024, .NSM⟩, ⟨0x1E026, 0x1E02A, .NSM⟩, ⟨0x1E100, 0x1E12C, .L⟩, ⟨0x1E130, 0x1E136, .NSM⟩,
   ⟨0x1E137, 0x1E13D, .L⟩, ⟨0x1E140, 0x1E149, .L⟩, ⟨0x1E14E, 0x1E14F, .L⟩, ⟨0x1E290, 0x1E2AD, .L⟩,
   ⟨0x1E2AE, 0x1E2AE, .NSM⟩, ⟨0x1E2C0, 0x1E2EB, .L⟩, ⟨0x1E2EC, 0x1E2EF, .NSM⟩, ⟨0x1E2F0, 0x1E2F9, .L⟩,
   ⟨0x1E2FF, 0x1E2FF, .ET⟩, ⟨0x1E7E0, 0x1E7E6, .L⟩, ⟨0x1E7E8, 0x1E7EB, .L⟩, ⟨0x1E7ED, 0x1E7EE, .L⟩,
   ⟨0x1E7F0, 0x1E7FE, .L⟩, ⟨0x1E800, 0x1E8C4, .R⟩, ⟨0x1E8C7, 0x1E8CF, .R⟩, ⟨0x1E8D0, 0x1E8D6, .NSM⟩,
   ⟨0x1E900, 0x1E943, .R⟩, ⟨0x1E944, 0x1E94A, .NSM⟩, ⟨0x1E94B, 0x1E94B, .R⟩, ⟨0x1E950, 0x1E959, .R⟩,
   ⟨0x1E95E, 0x1E95F, .R⟩, ⟨0x1EC71, 0x1ECB4, .AL⟩, ⟨0x1ED01, 0x1ED3D, .AL⟩, ⟨0x1EE00, 0x1EE03, .AL⟩,
   ⟨0x1EE05, 0x1EE1F, .AL⟩, ⟨0x1EE21, 0x1EE22, .AL⟩, ⟨0x1EE24, 0x1EE24, .AL⟩, ⟨0x1EE27, 0x1EE27, .AL⟩,
   ⟨0x1EE29, 0x1EE32, .AL⟩, ⟨0x1EE34, 0x1EE37, .AL⟩, ⟨0x1EE39, 0x1EE39, .AL⟩, ⟨0x1EE3B, 0x1EE3B, .AL⟩,
   ⟨0x1EE42, 0x1EE42, .AL⟩, ⟨0x1EE47, 0x1EE47, .AL⟩, ⟨0x1EE49, 0x1EE49, .AL⟩, ⟨0x1EE4B, 0x1EE4B, .AL⟩,
   ⟨0x1EE4D, 0x1EE4F, .AL⟩, ⟨0x1EE51, 0x1EE52, .AL⟩, ⟨0x1EE54, 0x1EE54, .AL⟩, ⟨0x1EE57, 0x1EE57, .AL⟩,
   ⟨0x1EE59, 0x1EE59, .AL⟩, ⟨0x1EE5B, 0x1EE5B, .AL⟩, ⟨0x1EE5D, 0x1EE5D, .AL⟩, ⟨0x1EE5F, 0x1EE5F, .AL⟩,
   ⟨0x1EE61, 0x1EE62, .AL⟩, ⟨0x1EE64, 0x1EE64, .AL⟩, ⟨0x1EE67, 0x1EE6A, .AL⟩, ⟨0x1EE6C, 0x1EE72, .AL⟩,
   ⟨0x1EE74, 0x1EE77, .AL⟩, ⟨0x1EE79, 0x1EE7C, .AL⟩, ⟨0x1EE7E, 0x1EE7E, .AL⟩, ⟨0x1EE80, 0x1EE89, .AL⟩,
   ⟨0x1EE8B, 0x1EE9B, .AL⟩, ⟨0x1EEA1, 0x1EEA3, .AL⟩, ⟨0x1EEA5, 0x1EEA9, .AL⟩, ⟨0x1EEAB, 0x1EEBB, .AL⟩,
   ⟨0x1EEF0, 0x1EEF1, .ON⟩, ⟨0x1F000, 0x1F02B, .ON⟩, ⟨0x1F030, 0x1F093, .ON⟩, ⟨0x1F0A0, 0x1F0AE, .ON⟩,
   ⟨0x1F0B1, 0x1F0BF, .ON⟩, ⟨0x1F0C1, 0x1F0CF, .ON⟩, ⟨0x1F0D1, 0x1F0F5, .ON⟩, ⟨0x1F100, 0x1F10A, .EN⟩,
   ⟨0x1F10B, 0x1F10F, .ON⟩, ⟨0x1F110, 0x1F12E, .L⟩, ⟨0x1F12F, 0x1F12F, .ON⟩, ⟨0x1F130, 0x1F169, .L⟩,
   ⟨0x1F16A, 0x1F16F, .ON⟩, ⟨0x1F170, 0x1F1AC, .L⟩, ⟨0x1F1AD, 0x1F1AD, .ON⟩, ⟨0x1F1E6, 0x1F202, .L⟩,
   ⟨0x1F210, 0x1F23B, .L⟩, ⟨0x1F240, 0x1F248, .L⟩, ⟨0x1F250, 0x1F251, .L⟩, ⟨0x1F260, 0x1F265, .ON⟩,
   ⟨0x1F300, 0x1F6D7, .ON⟩, ⟨0x1F6DD, 0x1F6EC, .ON⟩, ⟨0x1F6F0, 0x1F6FC, .ON⟩, ⟨0x1F700, 0x1F773, .ON⟩,
   ⟨0x1F780, 0x1F7D8, .ON⟩, ⟨0x1F7E0, 0x1F7EB, .ON⟩, ⟨0x1F7F0, 0x1F7F0, .ON⟩, ⟨0x1F800, 0x1F80B, .ON⟩,
   ⟨0x1F810, 0x1F847, .ON⟩, ⟨0x1F850, 0x1F859, .ON⟩, ⟨0x1F860, 0x1F887, .ON⟩, ⟨0x1F890, 0x1F8AD, .ON⟩,
   ⟨0x1F8B0, 0x1F8B1, .ON⟩, ⟨0x1F900, 0x1FA53, .ON⟩, ⟨0x1FA60, 0x1FA6D, .ON⟩, ⟨0x1FA70, 0x1FA74, .ON⟩,
   ⟨0x1FA78, 0x1FA7C, .ON⟩, ⟨0x1FA80, 0x1FA86, .ON⟩, ⟨0x1FA90, 0x1FAAC, .ON⟩, ⟨0x1FAB0, 0x1FABA, .ON⟩,
   ⟨0x1FAC0, 0x1FAC5, .ON⟩, ⟨0x1FAD0, 0x1FAD9, .ON⟩, ⟨0x1FAE0, 0x1FAE7, .ON⟩, ⟨0x1FAF0, 0x1FAF6, .ON⟩,
   ⟨0x1FB00, 0x1FB92, .ON⟩, ⟨0x1FB94, 0x1FBCA, .ON⟩, ⟨0x1FBF0, 0x1FBF9, .EN⟩, ⟨0x20000, 0x2A6DF, .L⟩,
   ⟨0x2A700, 0x2B738, .L⟩, ⟨0x2B740, 0x2B81D, .L⟩, ⟨0x2B820, 0x2CEA1, .L⟩, ⟨0x2CEB0, 0x2EBE0, .L⟩,
   ⟨0x2F800, 0x2FA1D, .L⟩, ⟨0x30000, 0x3134A, .L⟩, ⟨0xE0001, 0xE0001, .BN⟩, ⟨0xE0020, 0xE007F, .BN⟩,
   ⟨0xE0100, 0xE01EF, .NSM⟩, ⟨0xF0000, 0xFFFFD, .L⟩, ⟨0x100000, 0x10FFFD, .L⟩]

/-- Every code point that has a bidi class, in ascending ranges of one class. -/
def classRanges : List ClassRange :=
  classRanges1 ++ classRanges2 ++ classRanges3 ++ classRanges4 ++ classRanges5 ++ classRanges6 ++ classRanges7

/-- The bidi class of a code point, if it has one. -/
def classIn : List ClassRange → Nat → Option BidiClass
  | [], _ => none
  | r :: rest, n => if n < r.first then none else if n ≤ r.last then some r.cls else classIn rest n

/-- The bidi class of `c`; an unassigned code point has none. -/
def assignedClass (c : Char) : Option BidiClass := classIn classRanges c.toNat

end WikiTypeset.Bidi
