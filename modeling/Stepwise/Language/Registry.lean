import Stepwise.Text.Blank

/-!
# The registry of language subtags

Which languages, scripts, regions and variants a language tag may name, and which
of them are other spellings of a preferred one.
-/
namespace Stepwise.Language

def twoLetterCodes : List String := Text.words (
  "aa ab ae af ak am an ar as av ay az ba be bg bh bi bm bn bo br bs ca ce ch co cr cs cu cv " ++
  "cy da de dv dz ee el en eo es et eu fa ff fi fj fo fr fy ga gd gl gn gu gv ha he hi ho hr " ++
  "ht hu hy hz ia id ie ig ii ik in io is it iu iw ja ji jv jw ka kg ki kj kk kl km kn ko kr " ++
  "ks ku kv kw ky la lb lg li ln lo lt lu lv mg mh mi mk ml mn mo mr ms mt my na nb nd ne ng " ++
  "nl nn no nr nv ny oc oj om or os pa pi pl ps pt qu rm rn ro ru rw sa sc sd se sg sh si sk " ++
  "sl sm sn so sq sr ss st su sv sw ta te tg th ti tk tl tn to tr ts tt tw ty ug uk ur uz ve " ++
  "vi vo wa wo xh yi yo za zh zu")

/-- The three-letter language codes, as one row for every pair of first letters. Bit
`i` of a row says whether the code that ends in letter `i` is assigned. -/
def threeLetterRows : Array Nat := #[
  0x2DFFDFF, 0x3FFFDFF, 0x3FFB0BB, 0x3DBEBFB, 0x3571C17, 0x216E59A, 0x3FFFFFF, 0xEFDC3,
  0x1CFFF7F, 0x258A141, 0x27FCDFF, 0x3DFFFBF, 0x3FFF7F7, 0x3FFFFFF, 0x28E3F7F, 0x3FEFFFE,
  0x20A344C, 0x3F7FFDF, 0x3BE7FDF, 0x3FFFF5F, 0x35BFFDD, 0x3C7D1B, 0x1FE75D7, 0x801C52,
  0x29FFDDF, 0x208725A, 0x3F7FEF7, 0x1FFFF7F, 0x37FFFFF, 0x3FFFFFF, 0x3FDFFBF, 0x3DDFAFF,
  0x3FFF36F, 0x37FFFFF, 0x3FFFCFF, 0x3FFFFEF, 0x3FFFFEF, 0x3EFF7FF, 0x2F7FFFF, 0x3F7F77F,
  0x3FFFEBB, 0x3FFDFDD, 0x2FFDF6F, 0x3FFFFFF, 0x1FFFFB7, 0x3FFF3FF, 0x3FFFFFF, 0x3FB77FF,
  0x3DFDFFF, 0x277FFE7, 0x2E6BFBF, 0x3FBFFBF, 0x3EFFEFF, 0x17F6F4E, 0x3DADC, 0x20273B0,
  0x10C2443, 0x1049, 0x445, 0x3FBFFFB, 0x142B097, 0x126F591, 0x3BF7803, 0x15C5F9D, 0xE6D51,
  0xCF8DC7, 0x39FDEFF, 0x1946147, 0x100008, 0x3EF7FFF, 0x36CD683, 0x31CF8DD, 0x1B8CF87, 0x2040,
  0x8005B, 0x80, 0x5003, 0x82490, 0x2F7FFFD, 0x179FB7B, 0x20004, 0x466359, 0x2373DFC, 0x0,
  0x2CE6DDF, 0xF67948, 0x3FFEFEF, 0x527F3F, 0x860C41, 0x3040, 0x1F65C7F, 0x17A6759, 0x1EEEDB7,
  0x8000, 0x0, 0x15F69D4, 0x16582, 0x11ED58B, 0x3FFFFFF, 0x1, 0x3560C01, 0x0, 0x112714B, 0x6859,
  0x1, 0x124444, 0x1020000, 0x0, 0x0, 0x111, 0x1005801, 0x100000, 0x288000, 0x1, 0x102DD51,
  0x90DC10, 0x2D4B553, 0xE378EF, 0x80000, 0x4100, 0x0, 0x4E05C1, 0x11C15D0, 0x29E6002, 0x40008,
  0x2090, 0x4010, 0x80000, 0x4001, 0x11, 0x39EFFEB, 0x800, 0x0, 0x0, 0x20000, 0x1100, 0x20000,
  0x0, 0x4AAA31, 0x0, 0x200400, 0x1022981, 0x108000, 0x142, 0x63108, 0x10, 0x40000, 0x10FD41D,
  0x0, 0x0, 0x13B39BE, 0x20000, 0x11, 0x0, 0x0, 0x0, 0x3FFFFFF, 0x3F7FFFF, 0xA282C, 0x9B7FFE,
  0x3E74FEF, 0x800400, 0x5A6C5B, 0xE6415, 0x38FF8DF, 0x123400, 0x10E019, 0x724FDF, 0x3B238CB,
  0x25B7FDF, 0x1FFFFFF, 0x2011, 0x22001, 0x3FF33DF, 0x40E800, 0x100101, 0x2FBFFFF, 0x106FA35,
  0xDA337F, 0x800000, 0x302797B, 0x2101, 0x3FFFFDD, 0x146003, 0x80, 0x1002000, 0x211CB, 0x0,
  0x401000, 0x1020100, 0xCA7FEB, 0x100, 0x491, 0x18000B, 0x37FF22B, 0x473D9, 0x16ADB9F, 0x4000,
  0x0, 0x2FAD415, 0x42002, 0x944100, 0x3FEBDFE, 0x202414, 0x4005, 0x0, 0x400011, 0x0, 0x22100,
  0x11279DB, 0x20091, 0x1E411F, 0x0, 0x1101433, 0x447852, 0x408102, 0x2100, 0x42214, 0x2FACD90,
  0x70DD53, 0x10E6900, 0x8E2CB, 0x520000, 0x4500, 0x500000, 0x1902590, 0x187D8D, 0x3EE5D1B,
  0x1000, 0x200002, 0x45400, 0x804, 0x804001, 0x2021180, 0x3FF7EBF, 0x5A7710, 0x80000, 0x80041,
  0x1A2DD2, 0x0, 0x4412, 0x100, 0x138185F, 0x20010, 0x105001, 0x10, 0xC6290F, 0x40B49, 0x42004A,
  0x22001, 0x20000, 0x1A0003, 0x0, 0x0, 0x15AFD8B, 0x2008, 0x100, 0x0, 0x1000011, 0x0, 0x3FDFFCF,
  0x3FFFFDF, 0x37DFFFF, 0x3EBBFFD, 0x3FE7DFF, 0x3F7FDFF, 0x1FFDEBF, 0x3FFFEFF, 0x3FFFEFF,
  0x39FFFDF, 0x3FFDFFF, 0x3FFFFFF, 0x3FFFFFF, 0x3FFFF7F, 0x37FFFFD, 0x3FFFFFD, 0x3FFFFFF,
  0x3FEFFBF, 0x2FFFFFE, 0x3FFFFFF, 0x3FFFFFF, 0x3EFFBFF, 0x3FFFFFF, 0x3EBFF3F, 0x3FF7FFF,
  0x3FEFFBF, 0x2FFFFDF, 0x3FB7F32, 0x598BC, 0x1FFCB, 0x3FFFFFF, 0x2001, 0x21B7DC3, 0x1C3181,
  0x3FFFFFF, 0xC08911, 0x11E7B9F, 0x91FF7F, 0x1F3FFFF, 0x2543BCB, 0x3DFFFD7, 0x806011, 0x20000,
  0x2287D45, 0x61119, 0x21461C4, 0x37FFFFF, 0x140D01, 0x4858D1, 0x1000, 0x2001, 0x2002880,
  0x3FF7FFF, 0x3FFFFAF, 0x3FFFFFF, 0x3FFB7FF, 0x37FFEDF, 0x3FBFFFF, 0x3FFFFFF, 0x3DFFF7E,
  0x3DBFFFF, 0x3FF3FDE, 0x3EEFF3F, 0x2FEEFF7, 0x3FBF1FF, 0x3FFBFFF, 0x3FFFFFD, 0x3FFFFDF,
  0x3FFFFF7, 0x3FFFFEF, 0x3FDFFF3, 0x1FFFFFF, 0x3BFDFDF, 0x3FFECF9, 0x27FFFFF, 0x3FFFFFF,
  0x3FA9EFF, 0x2FBFF9B, 0x3FFFE7F, 0x1FBFFBF, 0x29BFFFF, 0x3FFFFFF, 0x3DBF7DF, 0x120809,
  0x3FFBFDF, 0x3FBF57F, 0x3FF7BFB, 0x39E7B8B, 0x2FF77FF, 0x3F3775D, 0x2FFFFFF, 0x3FFFFFF,
  0x17FF7FF, 0x19469C2, 0x1097C40, 0x290BD73, 0x3FD74FF, 0x396D758, 0x3FFF7FD, 0x5080, 0xC25156,
  0x936D59, 0x1FFFFFF, 0x312150B, 0x220005, 0x1A5D00, 0x104101, 0x180401, 0x0, 0x140000,
  0x104046, 0x180000, 0x2011, 0x640146, 0x2B6555F, 0x1A5419, 0xDACD47, 0x9EE751, 0x22008,
  0x1085401, 0x0, 0x3FE7155, 0x9CC105, 0x3DF3D1B, 0x3112, 0x8, 0x900, 0x0, 0x100100A, 0x1000,
  0x3FFFDFE, 0x13EF9F6, 0x42B7FF, 0x186005, 0x3A7DD5B, 0x811, 0x142D49, 0x7A7CC8, 0x3FEFAEF,
  0x80000, 0x12E0C3, 0x27E6DDF, 0x3DF7FBF, 0x36FFFDF, 0x16FFDF4, 0xFFD11, 0x1001, 0x1DFD5FC,
  0x5D3191, 0x3AE181, 0x3DFD37F, 0x0, 0x427043, 0x1000, 0x1903010, 0x2090, 0x0, 0x0, 0x0, 0x0,
  0x0, 0x0, 0x0, 0x0, 0x0, 0x0, 0x0, 0x0, 0x0, 0x0, 0x0, 0x0, 0x0, 0x0, 0x0, 0x0, 0x3E7BD7F,
  0x244FB95, 0xC1085, 0x5BE885, 0x8001, 0x0, 0x3E2F7EF, 0x8C02, 0x20, 0x2, 0x10C3B53, 0x0,
  0x162001, 0x8040, 0x1A3821, 0x40140, 0x481183, 0x0, 0x3DBFDFF, 0x422848, 0x52F8FE, 0x82000,
  0x0, 0x85100, 0x400400, 0x401084, 0x31DF576, 0x0, 0x25C01, 0x400008, 0x100000, 0x0, 0x3FFF6FF,
  0x3FFFFDF, 0xFEEDF7, 0x9766F7, 0x37FEFFF, 0x401010, 0x35E9B9F, 0x37FF7DF, 0x3F7BFFB, 0x5A985F,
  0x3FFF7FF, 0x3F2FFCC, 0x3DFEEFF, 0x3F7FF7F, 0x3FFDD5F, 0x12FFD5F, 0x195181, 0x3FFFDFF,
  0x3FD7AFE, 0x17FFFF3, 0x3EF7F57, 0x41017, 0x1FFD7F7, 0x562012, 0xC67D07, 0x160A84F, 0x3FFFEFF,
  0x3FCFFFD, 0x3D5F5FF, 0x1BF7FDF, 0x3FFFDDF, 0xA6100, 0x3FDEFFF, 0x3FF9DBD, 0x1FFFFFE, 0x54EB41,
  0x2FF8C7B, 0x1FFBFEF, 0x37BFFFF, 0x1EFFDFF, 0x3F7FFEE, 0x3FABF75, 0x58F802, 0x3FFFBF7,
  0x2FAEBEF, 0x37FFFBE, 0x3B77FFF, 0xDC7D19, 0x1DBF9FB, 0x19D7351, 0x3BEAB91, 0x807A80, 0x21000,
  0x1120901, 0x0, 0x101B51, 0x40000, 0x100, 0x4093, 0x2001, 0x240040, 0x100, 0x17385C1,
  0x1503537, 0x16F14B, 0x292B559, 0x2400, 0x200100, 0x0, 0x3FAF5FF, 0x148581, 0x128091, 0x21000,
  0x890, 0x1, 0x0, 0x1, 0x42002, 0x136FBF1, 0x402, 0x0, 0x0, 0x2F004, 0x0, 0x20000, 0x0,
  0x28287C, 0x400, 0x218FE01, 0x48000, 0x3D79FFF, 0x9400, 0xA0800, 0x0, 0x0, 0xC4001, 0x0,
  0x4000, 0x83000, 0x0, 0x1, 0x0, 0x0, 0x0, 0x3FFBBFF, 0x6B9FB3, 0x101, 0x1180648, 0x5ED9CC,
  0x40, 0x1504143, 0x100441, 0x17A3FF6, 0x101, 0x1420009, 0xF671D1, 0xCC719F, 0x150F55E,
  0x467D7F, 0x4, 0x0, 0x2F6DDC2, 0x360541, 0x4015A2, 0x1BA380B, 0x0, 0x424003, 0x400000,
  0x1023102, 0x0, 0x17E7F43, 0x142B35B, 0x24080, 0x1014401, 0x1E1048, 0x0, 0x50114A, 0x205010,
  0x1062101, 0x80002, 0x3FFAAFF, 0x100000D, 0x3FBF2EF, 0x31B3703, 0x42F54C, 0x2EB7FFB, 0x0,
  0x53315B, 0x117BB9B, 0x17DBB9F, 0x187A0A, 0x46110, 0x4A4E19, 0xA1402, 0x1080E03, 0x8080,
  0x3FFFFFF, 0x1807B9B, 0x22800, 0x459, 0x13E2B15, 0x0, 0x529901, 0x8, 0x1261BC9, 0x0, 0x10255C1,
  0x1120953, 0x8FC53, 0x150C4B, 0x10E3D42, 0x0, 0x0, 0x1445C13, 0x106A008, 0x1400000, 0x2DBBB7F,
  0x80001, 0x532041, 0x1101841, 0x120000, 0x0, 0x3FFD7FF, 0x580815, 0x81, 0x200, 0x30C1, 0x0,
  0x23083, 0x406109, 0x2423C01, 0x0, 0x218C00B, 0x113201, 0x3FFFFFF, 0x40451, 0x75084, 0x3FFFFFF,
  0x10, 0x4E040, 0x121001, 0x19DB850, 0x1003880, 0x0, 0x1, 0x800000, 0xA242, 0x201]

/-- The position of a lower-case letter in the alphabet. -/
def letterIndex? (c : Char) : Option Nat :=
  if 'a' ≤ c && c ≤ 'z' then some (c.toNat - 97) else none

/-- Whether a lower-case three-letter code is assigned. -/
def isThreeLetterCode (a b c : Char) : Bool :=
  match letterIndex? a, letterIndex? b, letterIndex? c with
  | some i, some j, some k => (threeLetterRows.getD (26 * i + j) 0).testBit k
  | _, _, _ => false

/-- Three-letter codes of languages that have a two-letter code. -/
def shortForms : List (String × String) := [
  ("aar", "aa"), ("abk", "ab"), ("afr", "af"), ("aka", "ak"), ("amh", "am"), ("ara", "ar"),
  ("arg", "an"), ("asm", "as"), ("ava", "av"), ("ave", "ae"), ("aym", "ay"), ("aze", "az"),
  ("bak", "ba"), ("bam", "bm"), ("bel", "be"), ("ben", "bn"), ("bis", "bi"), ("bod", "bo"),
  ("bos", "bs"), ("bre", "br"), ("bul", "bg"), ("cat", "ca"), ("ces", "cs"), ("cha", "ch"),
  ("che", "ce"), ("chu", "cu"), ("chv", "cv"), ("cor", "kw"), ("cos", "co"), ("cre", "cr"),
  ("cym", "cy"), ("dan", "da"), ("deu", "de"), ("div", "dv"), ("dzo", "dz"), ("ell", "el"),
  ("eng", "en"), ("epo", "eo"), ("est", "et"), ("eus", "eu"), ("ewe", "ee"), ("fao", "fo"),
  ("fas", "fa"), ("fij", "fj"), ("fin", "fi"), ("fra", "fr"), ("fry", "fy"), ("ful", "ff"),
  ("gla", "gd"), ("gle", "ga"), ("glg", "gl"), ("glv", "gv"), ("grn", "gn"), ("guj", "gu"),
  ("hat", "ht"), ("hau", "ha"), ("heb", "he"), ("her", "hz"), ("hin", "hi"), ("hmo", "ho"),
  ("hrv", "hr"), ("hun", "hu"), ("hye", "hy"), ("ibo", "ig"), ("ido", "io"), ("iii", "ii"),
  ("iku", "iu"), ("ile", "ie"), ("ina", "ia"), ("ind", "id"), ("ipk", "ik"), ("isl", "is"),
  ("ita", "it"), ("jav", "jv"), ("jpn", "ja"), ("kal", "kl"), ("kan", "kn"), ("kas", "ks"),
  ("kat", "ka"), ("kau", "kr"), ("kaz", "kk"), ("khm", "km"), ("kik", "ki"), ("kin", "rw"),
  ("kir", "ky"), ("kom", "kv"), ("kon", "kg"), ("kor", "ko"), ("kua", "kj"), ("kur", "ku"),
  ("lao", "lo"), ("lat", "la"), ("lav", "lv"), ("lim", "li"), ("lin", "ln"), ("lit", "lt"),
  ("ltz", "lb"), ("lub", "lu"), ("lug", "lg"), ("mah", "mh"), ("mal", "ml"), ("mar", "mr"),
  ("mkd", "mk"), ("mlg", "mg"), ("mlt", "mt"), ("mon", "mn"), ("mri", "mi"), ("msa", "ms"),
  ("mya", "my"), ("nau", "na"), ("nav", "nv"), ("nbl", "nr"), ("nde", "nd"), ("ndo", "ng"),
  ("nep", "ne"), ("nld", "nl"), ("nno", "nn"), ("nob", "nb"), ("nor", "no"), ("nya", "ny"),
  ("oci", "oc"), ("oji", "oj"), ("ori", "or"), ("orm", "om"), ("oss", "os"), ("pan", "pa"),
  ("pli", "pi"), ("pol", "pl"), ("por", "pt"), ("pus", "ps"), ("que", "qu"), ("roh", "rm"),
  ("ron", "ro"), ("run", "rn"), ("rus", "ru"), ("sag", "sg"), ("san", "sa"), ("sin", "si"),
  ("slk", "sk"), ("slv", "sl"), ("sme", "se"), ("smo", "sm"), ("sna", "sn"), ("snd", "sd"),
  ("som", "so"), ("sot", "st"), ("spa", "es"), ("sqi", "sq"), ("srd", "sc"), ("srp", "sr"),
  ("ssw", "ss"), ("sun", "su"), ("swa", "sw"), ("swe", "sv"), ("tah", "ty"), ("tam", "ta"),
  ("tat", "tt"), ("tel", "te"), ("tgk", "tg"), ("tgl", "tl"), ("tha", "th"), ("tir", "ti"),
  ("ton", "to"), ("tsn", "tn"), ("tso", "ts"), ("tuk", "tk"), ("tur", "tr"), ("twi", "tw"),
  ("uig", "ug"), ("ukr", "uk"), ("urd", "ur"), ("uzb", "uz"), ("ven", "ve"), ("vie", "vi"),
  ("vol", "vo"), ("wln", "wa"), ("wol", "wo"), ("xho", "xh"), ("yid", "yi"), ("yor", "yo"),
  ("zha", "za"), ("zho", "zh"), ("zul", "zu")]

/-- Older codes and the codes that took their place. -/
def replacedLanguages : List (String × String) := [
  ("alb", "sq"), ("arm", "hy"), ("baq", "eu"), ("bur", "my"), ("chi", "zh"), ("cze", "cs"),
  ("dut", "nl"), ("fre", "fr"), ("geo", "ka"), ("ger", "de"), ("gre", "el"), ("ice", "is"),
  ("mac", "mk"), ("mao", "mi"), ("may", "ms"), ("per", "fa"), ("rum", "ro"), ("slo", "sk"),
  ("tib", "bo"), ("wel", "cy"), ("scc", "sr"), ("scr", "hr"), ("jaw", "jv"), ("mol", "mo"),
  ("in", "id"), ("iw", "he"), ("ji", "yi"), ("jw", "jv"), ("tl", "fil"), ("aam", "aas"),
  ("adp", "dz"), ("aue", "ktz"), ("ayx", "nun"), ("bgm", "bcg"), ("bjd", "drl"), ("ccq", "rki"),
  ("cjr", "mom"), ("cka", "cmr"), ("cmk", "xch"), ("coy", "pij"), ("cqu", "quh"), ("drh", "mn"),
  ("drw", "prs"), ("gav", "dev"), ("gfx", "vaj"), ("ggn", "gvr"), ("gti", "nyc"), ("guv", "duz"),
  ("hrr", "jal"), ("ibi", "opa"), ("ilw", "gal"), ("jeg", "oyb"), ("kgc", "tdf"), ("kgh", "kml"),
  ("koj", "kwv"), ("krm", "bmf"), ("ktr", "dtp"), ("kvs", "gdj"), ("kwq", "yam"), ("kxe", "tvd"),
  ("kzj", "dtp"), ("kzt", "dtp"), ("lii", "raq"), ("lmm", "rmx"), ("meg", "cir"), ("mst", "mry"),
  ("mwj", "vaj"), ("myt", "mry"), ("nad", "xny"), ("ncp", "kdz"), ("nnx", "ngv"), ("nts", "pij"),
  ("oun", "vaj"), ("pcr", "adx"), ("pmc", "huw"), ("pmu", "phr"), ("ppa", "bfy"), ("ppr", "lcq"),
  ("pry", "prt"), ("puz", "pub"), ("sca", "hle"), ("skk", "oyb"), ("tdu", "dtp"), ("thc", "tpo"),
  ("thx", "oyb"), ("tie", "ras"), ("tkk", "twm"), ("tlw", "weo"), ("tmp", "tyj"), ("tne", "kak"),
  ("tnf", "prs"), ("tsf", "taj"), ("uok", "ema"), ("xba", "cax"), ("xia", "acn"), ("xkh", "waw"),
  ("xsj", "suj"), ("ybd", "rki"), ("yma", "lrr"), ("ymt", "mtm"), ("yos", "zom"), ("yuu", "yug")]

def scripts : List String := Text.words (
  "Adlm Afak Aghb Ahom Arab Aran Armi Armn Avst Bali Bamu Bass Batk Beng Berf Bhks Blis Bopo " ++
  "Brah Brai Bugi Buhd Cakm Cans Cari Cham Cher Chrs Cirt Copt Cpmn Cprt Cyrl Cyrs Deva Diak " ++
  "Dogr Dsrt Dupl Egyd Egyh Egyp Elba Elym Ethi Gara Geok Geor Glag Gong Gonm Goth Gran Grek " ++
  "Gujr Gukh Guru Hanb Hang Hani Hano Hans Hant Hatr Hebr Hira Hluw Hmng Hmnp Hrkt Hung Inds " ++
  "Ital Jamo Java Jpan Jurc Kali Kana Kawi Khar Khmr Khoj Kits Knda Kore Kpel Krai Kthi Lana " ++
  "Laoo Latf Latg Latn Lepc Limb Lina Linb Lisu Loma Lyci Lydi Mahj Maka Mand Mani Marc Maya " ++
  "Medf Mend Merc Mero Mlym Modi Mong Moon Mroo Mtei Mult Mymr Nagm Nand Narb Nbat Newa Nkgb " ++
  "Nkoo Nshu Ogam Olck Onao Orkh Orya Osge Osma Ougr Palm Pauc Perm Phag Phli Phlp Phlv Phnx " ++
  "Plrd Prti Qaag Rjng Rohg Roro Runr Samr Sara Sarb Saur Sgnw Shaw Shrd Sidd Sidt Sind Sinh " ++
  "Sogd Sogo Sora Soyo Sund Sunu Sylo Syrc Syre Syrj Syrn Tagb Takr Tale Talu Taml Tang Tavt " ++
  "Tayo Telu Teng Tfng Tglg Thaa Thai Tibt Tirh Tnsa Todr Tols Toto Tutg Ugar Vaii Visp Vith " ++
  "Wara Wcho Wole Xpeo Xsux Yezi Yiii Zanb Zinh Zmth Zsye Zsym Zxxx Zyyy Zzzz")

/-- The regions with a two-letter code. -/
def regions : List String := Text.words (
  "AA AC AD AE AF AG AI AL AM AN AO AQ AR AS AT AU AW AX AZ BA BB BD BE BF BG BH BI BJ BL BM " ++
  "BN BO BQ BR BS BT BU BV BW BY BZ CA CC CD CF CG CH CI CK CL CM CN CO CP CQ CR CS CU CV CW " ++
  "CX CY CZ DD DE DG DJ DK DM DO DY DZ EA EC EE EG EH ER ES ET EU EZ FI FJ FK FM FO FR FX GA " ++
  "GB GD GE GF GG GH GI GL GM GN GP GQ GR GS GT GU GW GY HK HM HN HR HT HU HV IC ID IE IL IM " ++
  "IN IO IQ IR IS IT JE JM JO JP KE KG KH KI KM KN KP KR KW KY KZ LA LB LC LI LK LR LS LT LU " ++
  "LV LY MA MC MD ME MF MG MH MK ML MM MN MO MP MQ MR MS MT MU MV MW MX MY MZ NA NC NE NF NG " ++
  "NH NI NL NO NP NR NU NZ OM PA PE PF PG PH PK PL PM PN PR PS PT PW PY QA QM QN QO QP QQ QR " ++
  "QS QT QV QW QX QY QZ RE RH RO RS RU RW SA SB SC SD SE SG SH SI SJ SK SL SM SN SO SR SS ST " ++
  "SU SV SX SY SZ TA TC TD TF TG TH TJ TK TL TM TN TO TP TR TT TV TW TZ UA UG UK UM UN US UY " ++
  "UZ VA VC VD VE VG VI VN VU WF WS XA XB XC XD XE XF XG XH XI XJ XK XL XM XN XO XP XQ XR XS " ++
  "XT XU XV XW XX XY XZ YD YE YT YU ZA ZM ZR ZW ZZ")

/-- The numeric region codes and how they are written. -/
def numericRegions : List (String × String) := [
  ("001", "001"), ("002", "002"), ("003", "003"), ("004", "AF"), ("005", "005"), ("008", "AL"),
  ("009", "009"), ("010", "AQ"), ("011", "011"), ("012", "DZ"), ("013", "013"), ("014", "014"),
  ("015", "015"), ("016", "AS"), ("017", "017"), ("018", "018"), ("019", "019"), ("020", "AD"),
  ("021", "021"), ("024", "AO"), ("028", "AG"), ("029", "029"), ("030", "030"), ("031", "AZ"),
  ("032", "AR"), ("034", "034"), ("035", "035"), ("036", "AU"), ("039", "039"), ("040", "AT"),
  ("044", "BS"), ("048", "BH"), ("050", "BD"), ("051", "AM"), ("052", "BB"), ("053", "053"),
  ("054", "054"), ("056", "BE"), ("057", "057"), ("060", "BM"), ("061", "061"), ("064", "BT"),
  ("068", "BO"), ("070", "BA"), ("072", "BW"), ("074", "BV"), ("076", "BR"), ("084", "BZ"),
  ("086", "IO"), ("090", "SB"), ("092", "VG"), ("096", "BN"), ("100", "BG"), ("104", "MM"),
  ("108", "BI"), ("112", "BY"), ("116", "KH"), ("120", "CM"), ("124", "CA"), ("132", "CV"),
  ("136", "KY"), ("140", "CF"), ("142", "142"), ("143", "143"), ("144", "LK"), ("145", "145"),
  ("148", "TD"), ("150", "150"), ("151", "151"), ("152", "CL"), ("154", "154"), ("155", "155"),
  ("156", "CN"), ("158", "TW"), ("162", "CX"), ("166", "CC"), ("170", "CO"), ("172", "RU"),
  ("174", "KM"), ("175", "YT"), ("178", "CG"), ("180", "CD"), ("184", "CK"), ("188", "CR"),
  ("191", "HR"), ("192", "CU"), ("196", "CY"), ("200", "CZ"), ("202", "202"), ("203", "CZ"),
  ("204", "BJ"), ("208", "DK"), ("212", "DM"), ("214", "DO"), ("218", "EC"), ("222", "SV"),
  ("226", "GQ"), ("230", "ET"), ("231", "ET"), ("232", "ER"), ("233", "EE"), ("234", "FO"),
  ("238", "FK"), ("239", "GS"), ("242", "FJ"), ("246", "FI"), ("248", "AX"), ("249", "FR"),
  ("250", "FR"), ("254", "GF"), ("258", "PF"), ("260", "TF"), ("262", "DJ"), ("266", "GA"),
  ("268", "GE"), ("270", "GM"), ("275", "PS"), ("276", "DE"), ("278", "DE"), ("280", "DE"),
  ("288", "GH"), ("292", "GI"), ("296", "KI"), ("300", "GR"), ("304", "GL"), ("308", "GD"),
  ("312", "GP"), ("316", "GU"), ("320", "GT"), ("324", "GN"), ("328", "GY"), ("332", "HT"),
  ("334", "HM"), ("336", "VA"), ("340", "HN"), ("344", "HK"), ("348", "HU"), ("352", "IS"),
  ("356", "IN"), ("360", "ID"), ("364", "IR"), ("368", "IQ"), ("372", "IE"), ("376", "IL"),
  ("380", "IT"), ("384", "CI"), ("388", "JM"), ("392", "JP"), ("398", "KZ"), ("400", "JO"),
  ("404", "KE"), ("408", "KP"), ("410", "KR"), ("414", "KW"), ("417", "KG"), ("418", "LA"),
  ("419", "419"), ("422", "LB"), ("426", "LS"), ("428", "LV"), ("430", "LR"), ("434", "LY"),
  ("438", "LI"), ("440", "LT"), ("442", "LU"), ("446", "MO"), ("450", "MG"), ("454", "MW"),
  ("458", "MY"), ("462", "MV"), ("466", "ML"), ("470", "MT"), ("474", "MQ"), ("478", "MR"),
  ("480", "MU"), ("484", "MX"), ("492", "MC"), ("496", "MN"), ("498", "MD"), ("499", "ME"),
  ("500", "MS"), ("504", "MA"), ("508", "MZ"), ("512", "OM"), ("516", "NA"), ("520", "NR"),
  ("524", "NP"), ("528", "NL"), ("530", "CW"), ("531", "CW"), ("532", "CW"), ("533", "AW"),
  ("534", "SX"), ("535", "BQ"), ("536", "SA"), ("540", "NC"), ("548", "VU"), ("554", "NZ"),
  ("558", "NI"), ("562", "NE"), ("566", "NG"), ("570", "NU"), ("574", "NF"), ("578", "NO"),
  ("580", "MP"), ("581", "UM"), ("582", "FM"), ("583", "FM"), ("584", "MH"), ("585", "PW"),
  ("586", "PK"), ("591", "PA"), ("598", "PG"), ("600", "PY"), ("604", "PE"), ("608", "PH"),
  ("612", "PN"), ("616", "PL"), ("620", "PT"), ("624", "GW"), ("626", "TL"), ("630", "PR"),
  ("634", "QA"), ("638", "RE"), ("642", "RO"), ("643", "RU"), ("646", "RW"), ("652", "BL"),
  ("654", "SH"), ("659", "KN"), ("660", "AI"), ("662", "LC"), ("663", "MF"), ("666", "PM"),
  ("670", "VC"), ("674", "SM"), ("678", "ST"), ("682", "SA"), ("686", "SN"), ("688", "RS"),
  ("690", "SC"), ("694", "SL"), ("702", "SG"), ("703", "SK"), ("704", "VN"), ("705", "SI"),
  ("706", "SO"), ("710", "ZA"), ("716", "ZW"), ("720", "YE"), ("724", "ES"), ("728", "SS"),
  ("729", "SD"), ("732", "EH"), ("736", "SD"), ("740", "SR"), ("744", "SJ"), ("748", "SZ"),
  ("752", "SE"), ("756", "CH"), ("760", "SY"), ("762", "TJ"), ("764", "TH"), ("768", "TG"),
  ("772", "TK"), ("776", "TO"), ("780", "TT"), ("784", "AE"), ("788", "TN"), ("792", "TR"),
  ("795", "TM"), ("796", "TC"), ("798", "TV"), ("800", "UG"), ("804", "UA"), ("807", "MK"),
  ("810", "RU"), ("818", "EG"), ("826", "GB"), ("830", "JE"), ("831", "GG"), ("832", "JE"),
  ("833", "IM"), ("834", "TZ"), ("840", "US"), ("850", "VI"), ("854", "BF"), ("858", "UY"),
  ("860", "UZ"), ("862", "VE"), ("876", "WF"), ("882", "WS"), ("886", "YE"), ("887", "YE"),
  ("890", "RS"), ("891", "RS"), ("894", "ZM"), ("958", "AA"), ("959", "QM"), ("960", "QN"),
  ("962", "QP"), ("963", "QQ"), ("964", "QR"), ("965", "QS"), ("966", "QT"), ("967", "EU"),
  ("968", "QV"), ("969", "QW"), ("970", "QX"), ("971", "QY"), ("972", "QZ"), ("973", "XA"),
  ("974", "XB"), ("975", "XC"), ("976", "XD"), ("977", "XE"), ("978", "XF"), ("979", "XG"),
  ("980", "XH"), ("981", "XI"), ("982", "XJ"), ("983", "XK"), ("984", "XL"), ("985", "XM"),
  ("986", "XN"), ("987", "XO"), ("988", "XP"), ("989", "XQ"), ("990", "XR"), ("991", "XS"),
  ("992", "XT"), ("993", "XU"), ("994", "XV"), ("995", "XW"), ("996", "XX"), ("997", "XY"),
  ("998", "XZ"), ("999", "ZZ")]

/-- Older region codes and the codes that took their place. -/
def replacedRegions : List (String × String) := [
  ("BU", "MM"), ("DD", "DE"), ("FX", "FR"), ("TP", "TL"), ("YD", "YE"), ("ZR", "CD"), ("UK", "GB")]

def variants : List String := Text.words (
  "1606nict 1694acad 1901 1959acad 1994 1996 abl1943 akuapem alalc97 aluku ao1990 aranes " ++
  "arevela arevmda asante auvern baku1926 balanka barla basiceng bauddha biscayan biske " ++
  "bohoric boont bornholm cisaup colb1945 cornu creiss dajnko ekavsk emodeng fonipa fonnapa " ++
  "fonupa fonxsamp gascon grclass grital grmistr hepburn heploc hognorsk hsistemo ijekavsk " ++
  "itihasa ivanchov jauer jyutping kkcor kociewie kscor laukika lemosin lengadoc lipaw " ++
  "luna1918 metelko monoton ndyuka nedis newfound nicard njiva nulik osojs oxendict pahawh2 " ++
  "pahawh3 pahawh4 pamaka peano petr1708 pinyin polyton provenc puter rigik rozaj rumgr " ++
  "scotland scouse simple solba sotav spanglis surmiran sursilv sutsilv tarask tongyong " ++
  "tunumiit uccor ucrcor ulster unifon vaidika valencia vallader vecdruka vivaraup wadegile " ++
  "xsistemo")

/-- Whole tags of an older form and what they stand for. -/
def wholeTags : List (String × String) := [
  ("art-lojban", "jbo"), ("i-ami", "ami"), ("i-bnn", "bnn"), ("i-hak", "hak"),
  ("i-klingon", "tlh"), ("i-lux", "lb"), ("i-navajo", "nv"), ("i-pwn", "pwn"), ("i-tao", "tao"),
  ("i-tay", "tay"), ("i-tsu", "tsu"), ("no-bok", "nb"), ("no-nyn", "nn"), ("sgn-be-fr", "sfb"),
  ("sgn-be-nl", "vgt"), ("sgn-ch-de", "sgg"), ("zh-guoyu", "cmn"), ("zh-hakka", "hak"),
  ("zh-min-nan", "nan"), ("zh-xiang", "hsn"), ("en-gb-oed", "en-GB-oxendict"),
  ("i-default", "en-x-i-default"), ("i-enochian", "und-x-i-enochian"),
  ("i-mingo", "see-x-i-mingo"), ("zh-min", "nan-x-zh-min"),
  ("cel-gaulish", "xtg-x-cel-gaulish")]

end Stepwise.Language
