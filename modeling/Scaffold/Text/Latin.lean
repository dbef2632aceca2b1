/-!
# Latin spellings

How characters outside of ASCII are spelled with ASCII characters: letters lose their marks,
other scripts are romanized, and symbols are written out. A character without a spelling has
none here.
-/

namespace Scaffold.Text

/-- Runs of characters with spellings: the first character, their number, and the spellings
between bars. -/
def latinRows : List (Nat × Nat × String) := [
  (0xa2, 2, "C/|PS"), (0xa5, 1, "Y="), (0xa7, 1, "SS"), (0xa9, 2, "(c)|a"), (0xad, 2, "|(r)"),
  (0xb0, 1, "deg"), (0xb2, 2, "2|3"), (0xb5, 2, "u|P"), (0xb9, 2, "1|o"), (0xbc, 3, "1/4|1/2|3/4"),
  (0xc0, 32, "A|A|A|A|A|A|AE|C|E|E|E|E|I|I|I|I|D|N|O|O|O|O|O|x|O|U|U|U|U|Y|Th|ss"),
  (0xe0, 23, "a|a|a|a|a|a|ae|c|e|e|e|e|i|i|i|i|d|n|o|o|o|o|o"),
  (0xf8, 32, "o|u|u|u|u|y|th|y|A|a|A|a|A|a|C|c|C|c|C|c|C|c|D|d|D|d|E|e|E|e|E|e"),
  (0x118, 32, "E|e|E|e|G|g|G|g|G|g|G|g|H|h|H|h|I|i|I|i|I|i|I|i|I|i|IJ|ij|J|j|K|k"),
  (0x138, 7, "k|L|l|L|l|L|l"),
  (0x141, 32, "L|l|N|n|N|n|N|n|'n|NG|ng|O|o|O|o|O|o|OE|oe|R|r|R|r|R|r|S|s|S|s|S|s|S"),
  (0x161, 32, "s|T|t|T|t|T|t|U|u|U|u|U|u|U|u|U|u|U|u|W|w|Y|y|Y|Z|z|Z|z|Z|z|s|b"), (0x181, 1, "B"),
  (0x186, 5, "O|C|c|D|D"), (0x190, 4, "E|F|f|G"), (0x197, 4, "I|K|k|l"), (0x19d, 2, "N|n"),
  (0x1a0, 2, "O|o"), (0x1a4, 2, "P|p"), (0x1ab, 6, "t|T|t|T|U|u"), (0x1b2, 5, "V|Y|y|Z|z"),
  (0x1c4, 25, "DZ|Dz|dz|LJ|Lj|lj|NJ|Nj|nj|A|a|I|i|O|o|U|u|U|u|U|u|U|u|U|u"), (0x1de, 4, "A|a|A|a"),
  (0x1e4, 10, "G|g|G|g|K|k|O|o|O|o"), (0x1f0, 6, "j|DZ|Dz|dz|G|g"), (0x1f8, 4, "N|n|A|a"),
  (0x200, 28, "A|a|A|a|E|e|E|e|I|i|I|i|O|o|O|o|R|r|R|r|U|u|U|u|S|s|T|t"), (0x21e, 3, "H|h|N"),
  (0x226, 14, "A|a|E|e|O|o|O|o|O|o|O|o|Y|y"), (0x237, 1, "j"), (0x23a, 4, "A|C|c|L"),
  (0x243, 2, "B|U"), (0x246, 4, "E|e|J|j"), (0x24c, 4, "R|r|Y|y"), (0x254, 1, "o"),
  (0x25b, 1, "e"), (0x2b0, 1, "h"), (0x2b2, 2, "j|r"), (0x2b7, 2, "w|y"), (0x2e1, 3, "l|s|x"),
  (0x300, 32, "|||||||||||||||||||||||||||||||"), (0x320, 32, "|||||||||||||||||||||||||||||||"),
  (0x340, 32, "|||||||||||||||||||||||||||||||"), (0x360, 16, "|||||||||||||||"), (0x386, 1, "A"),
  (0x388, 3, "E|E|I"), (0x38c, 1, "O"), (0x38e, 20, "U|O|i|A|B|G|D|E|Z|E|Th|I|K|L|M|N|X|O|P|R"),
  (0x3a3, 32, "S|T|U|Ph|Kh|Ps|O|I|U|a|e|e|i|u|a|b|g|d|e|z|e|th|i|k|l|m|n|x|o|p|r|s"),
  (0x3c3, 12, "s|t|u|ph|kh|ps|o|i|u|o|u|o"), (0x3d0, 7, "b|th|U|U|U|ph|p"),
  (0x400, 32, "Ie|Io|Dj|Gj|Ie|Dz|I|Yi|J|Lj|Nj|Tsh|Kj|I|U|Dzh|A|B|V|G|D|E|Zh|Z|I|I|K|L|M|N|O|P"),
  (0x420, 10, "R|S|T|U|F|Kh|Ts|Ch|Sh|Shch"), (0x42b, 1, "Y"),
  (0x42d, 29, "E|Iu|Ia|a|b|v|g|d|e|zh|z|i|i|k|l|m|n|o|p|r|s|t|u|f|kh|ts|ch|sh|shch"),
  (0x44b, 1, "y"), (0x44d, 19, "e|iu|ia|ie|io|dj|gj|ie|dz|i|yi|j|lj|nj|tsh|kj|i|u|dzh"),
  (0x490, 2, "G'|g'"), (0x660, 10, "0|1|2|3|4|5|6|7|8|9"), (0x6f0, 10, "0|1|2|3|4|5|6|7|8|9"),
  (0x7c0, 10, "0|1|2|3|4|5|6|7|8|9"), (0x966, 10, "0|1|2|3|4|5|6|7|8|9"),
  (0x9e6, 10, "0|1|2|3|4|5|6|7|8|9"), (0xa66, 10, "0|1|2|3|4|5|6|7|8|9"),
  (0xae6, 10, "0|1|2|3|4|5|6|7|8|9"), (0xb66, 10, "0|1|2|3|4|5|6|7|8|9"),
  (0xbe6, 10, "0|1|2|3|4|5|6|7|8|9"), (0xc66, 10, "0|1|2|3|4|5|6|7|8|9"),
  (0xce6, 10, "0|1|2|3|4|5|6|7|8|9"), (0xd66, 10, "0|1|2|3|4|5|6|7|8|9"),
  (0xde6, 10, "0|1|2|3|4|5|6|7|8|9"), (0xe50, 10, "0|1|2|3|4|5|6|7|8|9"),
  (0xed0, 10, "0|1|2|3|4|5|6|7|8|9"), (0xf20, 10, "0|1|2|3|4|5|6|7|8|9"),
  (0x1040, 10, "0|1|2|3|4|5|6|7|8|9"), (0x1090, 10, "0|1|2|3|4|5|6|7|8|9"),
  (0x17e0, 10, "0|1|2|3|4|5|6|7|8|9"), (0x1810, 10, "0|1|2|3|4|5|6|7|8|9"),
  (0x1946, 10, "0|1|2|3|4|5|6|7|8|9"), (0x19d0, 10, "0|1|2|3|4|5|6|7|8|9"),
  (0x1a80, 10, "0|1|2|3|4|5|6|7|8|9"), (0x1a90, 10, "0|1|2|3|4|5|6|7|8|9"),
  (0x1b50, 10, "0|1|2|3|4|5|6|7|8|9"), (0x1bb0, 10, "0|1|2|3|4|5|6|7|8|9"),
  (0x1c40, 10, "0|1|2|3|4|5|6|7|8|9"), (0x1c50, 10, "0|1|2|3|4|5|6|7|8|9"),
  (0x1e00, 32, "A|a|B|b|B|b|B|b|C|c|D|d|D|d|D|d|D|d|D|d|E|e|E|e|E|e|E|e|E|e|F|f"),
  (0x1e20, 32, "G|g|H|h|H|h|H|h|H|h|H|h|I|i|I|i|K|k|K|k|K|k|L|l|L|l|L|l|L|l|M|m"),
  (0x1e40, 32, "M|m|M|m|N|n|N|n|N|n|N|n|O|o|O|o|O|o|O|o|P|p|P|p|R|r|R|r|R|r|R|r"),
  (0x1e60, 32, "S|s|S|s|S|s|S|s|S|s|T|t|T|t|T|t|T|t|U|u|U|u|U|u|U|u|U|u|V|v|V|v"),
  (0x1e80, 26, "W|w|W|w|W|w|W|w|W|w|X|x|X|x|Y|y|Z|z|Z|z|Z|z|h|t|w|y"), (0x1e9b, 1, "s"),
  (0x1e9e, 1, "Ss"),
  (0x1ea0, 32, "A|a|A|a|A|a|A|a|A|a|A|a|A|a|A|a|A|a|A|a|A|a|A|a|E|e|E|e|E|e|E|e"),
  (0x1ec0, 32, "E|e|E|e|E|e|E|e|I|i|I|i|O|o|O|o|O|o|O|o|O|o|O|o|O|o|O|o|O|o|O|o"),
  (0x1ee0, 26, "O|o|O|o|U|u|U|u|U|u|U|u|U|u|U|u|U|u|Y|y|Y|y|Y|y|Y|y"),
  (0x1f00, 22, "a|a|a|a|a|a|a|a|A|A|A|A|A|A|A|A|e|e|e|e|e|e"), (0x1f18, 6, "E|E|E|E|E|E"),
  (0x1f20, 32, "e|e|e|e|e|e|e|e|E|E|E|E|E|E|E|E|i|i|i|i|i|i|i|i|I|I|I|I|I|I|I|I"),
  (0x1f40, 6, "o|o|o|o|o|o"), (0x1f48, 6, "O|O|O|O|O|O"), (0x1f50, 8, "u|u|u|u|u|u|u|u"),
  (0x1f59, 1, "U"), (0x1f5b, 1, "U"), (0x1f5d, 1, "U"),
  (0x1f5f, 31, "U|o|o|o|o|o|o|o|o|O|O|O|O|O|O|O|O|a|a|e|e|e|e|i|i|o|o|u|u|o|o"),
  (0x1f80, 32, "a|a|a|a|a|a|a|a|A|A|A|A|A|A|A|A|e|e|e|e|e|e|e|e|E|E|E|E|E|E|E|E"),
  (0x1fa0, 21, "o|o|o|o|o|o|o|o|O|O|O|O|O|O|O|O|a|a|a|a|a"), (0x1fb6, 7, "a|a|A|A|A|A|A"),
  (0x1fbe, 1, "i"), (0x1fc2, 3, "e|e|e"), (0x1fc6, 7, "e|e|E|E|E|E|E"), (0x1fd0, 4, "i|i|i|i"),
  (0x1fd6, 6, "i|i|I|I|I|I"), (0x1fe0, 13, "u|u|u|u|r|r|u|u|U|U|U|U|R"), (0x1ff2, 3, "o|o|o"),
  (0x1ff6, 7, "o|o|O|O|O|O|O"), (0x2070, 2, "0|i"), (0x2074, 6, "4|5|6|7|8|9"),
  (0x207f, 11, "n|0|1|2|3|4|5|6|7|8|9"), (0x2090, 4, "a|e|o|x"), (0x2095, 8, "h|k|l|m|n|p|s|t"),
  (0x20ac, 1, "EUR"), (0x2100, 3, "a/c|a/s|C"), (0x2105, 2, "c/o|c/u"), (0x210a, 5, "g|H|H|H|h"),
  (0x2110, 4, "I|I|L|l"), (0x2115, 2, "N|No"), (0x2119, 5, "P|Q|R|R|R"),
  (0x2120, 3, "SM|TEL|(tm)"), (0x2124, 1, "Z"), (0x2126, 1, "O"), (0x2128, 1, "Z"),
  (0x212a, 8, "K|A|B|C|e|e|E|F"), (0x2133, 2, "M|o"), (0x2139, 1, "i"), (0x213b, 5, "FAX|p|g|G|P"),
  (0x2145, 5, "D|d|e|i|j"),
  (0x2150, 32, "1/7|1/9|1/10|1/3|2/3|1/5|2/5|3/5|4/5|1/6|5/6|1/8|3/8|5/8|7/8|1/|I|II|III|IV|V|VI|VII|VIII|IX|X|XI|XII|L|C|D|M"),
  (0x2170, 16, "i|ii|iii|iv|v|vi|vii|viii|ix|x|xi|xii|l|c|d|m"), (0x2189, 1, "0/3"),
  (0x2460, 32, "1|2|3|4|5|6|7|8|9|10|11|12|13|14|15|16|17|18|19|20|(1)|(2)|(3)|(4)|(5)|(6)|(7)|(8)|(9)|(10)|(11)|(12)"),
  (0x2480, 32, "(13)|(14)|(15)|(16)|(17)|(18)|(19)|(20)|1.|2.|3.|4.|5.|6.|7.|8.|9.|10.|11.|12.|13.|14.|15.|16.|17.|18.|19.|20.|(a)|(b)|(c)|(d)"),
  (0x24a0, 32, "(e)|(f)|(g)|(h)|(i)|(j)|(k)|(l)|(m)|(n)|(o)|(p)|(q)|(r)|(s)|(t)|(u)|(v)|(w)|(x)|(y)|(z)|A|B|C|D|E|F|G|H|I|J"),
  (0x24c0, 32, "K|L|M|N|O|P|Q|R|S|T|U|V|W|X|Y|Z|a|b|c|d|e|f|g|h|i|j|k|l|m|n|o|p"),
  (0x24e0, 10, "q|r|s|t|u|v|w|x|y|z"), (0x2603, 1, "snowman "), (0x2615, 1, "coffee "),
  (0x2728, 1, "sparkles "), (0x2764, 1, "heart "), (0x2b50, 1, "star "),
  (0x3041, 32, "a|a|i|i|u|u|e|e|o|o|ka|ga|ki|gi|ku|gu|ke|ge|ko|go|sa|za|shi|zi|su|zu|se|ze|so|zo|ta|da"),
  (0x3061, 32, "chi|di|tsu|tsu|du|te|de|to|do|na|ni|nu|ne|no|ha|ba|pa|hi|bi|pi|hu|bu|pu|he|be|pe|ho|bo|po|ma|mi|mu"),
  (0x3081, 20, "me|mo|ya|ya|yu|yu|yo|yo|ra|ri|ru|re|ro|wa|wa|wi|we|wo|n|vu"),
  (0x30a1, 32, "a|a|i|i|u|u|e|e|o|o|ka|ga|ki|gi|ku|gu|ke|ge|ko|go|sa|za|shi|zi|su|zu|se|ze|so|zo|ta|da"),
  (0x30c1, 32, "chi|di|tsu|tsu|du|te|de|to|do|na|ni|nu|ne|no|ha|ba|pa|hi|bi|pi|hu|bu|pu|he|be|pe|ho|bo|po|ma|mi|mu"),
  (0x30e1, 20, "me|mo|ya|ya|yu|yu|yo|yo|ra|ri|ru|re|ro|wa|wa|wi|we|wo|n|vu"), (0x4e00, 1, "Yi "),
  (0x4e03, 1, "Qi "), (0x4e09, 3, "San |Shang |Xia "), (0x4e0d, 1, "Bu "), (0x4e16, 1, "Shi "),
  (0x4e2d, 1, "Zhong "), (0x4e5d, 1, "Jiu "), (0x4e8c, 1, "Er "), (0x4e94, 1, "Wu "),
  (0x4eac, 1, "Jing "), (0x4eba, 1, "Ren "), (0x4f53, 1, "Ti "), (0x4f60, 1, "Ni "),
  (0x516b, 1, "Ba "), (0x516d, 1, "Liu "), (0x524d, 1, "Qian "), (0x5317, 1, "Bei "),
  (0x5341, 1, "Shi "), (0x5357, 1, "Nan "), (0x540d, 1, "Ming "), (0x5417, 1, "Ma "),
  (0x55ce, 1, "Ma "), (0x56db, 1, "Si "), (0x56fd, 1, "Guo "), (0x570b, 1, "Guo "),
  (0x571f, 1, "Tu "), (0x5927, 1, "Da "), (0x5929, 1, "Tian "), (0x597d, 1, "Hao "),
  (0x5b57, 1, "Zi "), (0x5b66, 1, "Xue "), (0x5b78, 1, "Xue "), (0x5bb6, 1, "Jia "),
  (0x5c0f, 1, "Xiao "), (0x5c71, 1, "Shan "), (0x5e2b, 1, "Shi "), (0x5e74, 1, "Nian "),
  (0x5f71, 1, "Ying "), (0x5fc3, 1, "Xin "), (0x611b, 1, "Ai "), (0x6211, 1, "Wo "),
  (0x6587, 1, "Wen "), (0x65b0, 1, "Xin "), (0x65e5, 1, "Ri "), (0x660e, 1, "Ming "),
  (0x662f, 1, "Shi "), (0x6708, 1, "Yue "), (0x6728, 1, "Mu "), (0x672c, 1, "Ben "),
  (0x674e, 1, "Li "), (0x6771, 1, "Dong "), (0x6c34, 1, "Shui "), (0x6c49, 1, "Han "),
  (0x6d4b, 1, "Ce "), (0x6d77, 1, "Hai "), (0x6f22, 1, "Han "), (0x706b, 1, "Huo "),
  (0x7231, 1, "Ai "), (0x738b, 1, "Wang "), (0x751f, 1, "Sheng "), (0x7530, 1, "Tian "),
  (0x754c, 1, "Jie "), (0x767d, 1, "Bai "), (0x7684, 1, "De "), (0x76ee, 1, "Mu "),
  (0x7b80, 1, "Jian "), (0x7e41, 1, "Fan "), (0x7ea2, 1, "Hong "), (0x82b1, 1, "Hua "),
  (0x897f, 1, "Xi "), (0x8a66, 1, "Shi "), (0x8a9e, 1, "Yu "), (0x8bd5, 1, "Shi "),
  (0x8bed, 1, "Yu "), (0x8eca, 1, "Che "), (0x91d1, 1, "Jin "), (0x9577, 1, "Chang "),
  (0x9580, 1, "Men "), (0x9879, 1, "Xiang "), (0x98a8, 1, "Feng "), (0x9a13, 1, "Yan "),
  (0x9ad4, 1, "Ti "), (0x9ad8, 1, "Gao "), (0x9ed1, 1, "Hei "),
  (0xa620, 10, "0|1|2|3|4|5|6|7|8|9"), (0xa8d0, 10, "0|1|2|3|4|5|6|7|8|9"),
  (0xa900, 10, "0|1|2|3|4|5|6|7|8|9"), (0xa9d0, 10, "0|1|2|3|4|5|6|7|8|9"),
  (0xa9f0, 10, "0|1|2|3|4|5|6|7|8|9"), (0xaa50, 10, "0|1|2|3|4|5|6|7|8|9"),
  (0xabf0, 10, "0|1|2|3|4|5|6|7|8|9"), (0xfb00, 7, "ff|fi|fl|ffi|ffl|st|st"),
  (0xff10, 10, "0|1|2|3|4|5|6|7|8|9"),
  (0xff21, 26, "A|B|C|D|E|F|G|H|I|J|K|L|M|N|O|P|Q|R|S|T|U|V|W|X|Y|Z"),
  (0xff41, 26, "a|b|c|d|e|f|g|h|i|j|k|l|m|n|o|p|q|r|s|t|u|v|w|x|y|z"),
  (0x1d400, 32, "A|B|C|D|E|F|G|H|I|J|K|L|M|N|O|P|Q|R|S|T|U|V|W|X|Y|Z|a|b|c|d|e|f"),
  (0x1d420, 32, "g|h|i|j|k|l|m|n|o|p|q|r|s|t|u|v|w|x|y|z|A|B|C|D|E|F|G|H|I|J|K|L"),
  (0x1d440, 21, "M|N|O|P|Q|R|S|T|U|V|W|X|Y|Z|a|b|c|d|e|f|g"),
  (0x1d456, 32, "i|j|k|l|m|n|o|p|q|r|s|t|u|v|w|x|y|z|A|B|C|D|E|F|G|H|I|J|K|L|M|N"),
  (0x1d476, 32, "O|P|Q|R|S|T|U|V|W|X|Y|Z|a|b|c|d|e|f|g|h|i|j|k|l|m|n|o|p|q|r|s|t"),
  (0x1d496, 7, "u|v|w|x|y|z|A"), (0x1d49e, 2, "C|D"), (0x1d4a2, 1, "G"), (0x1d4a5, 2, "J|K"),
  (0x1d4a9, 4, "N|O|P|Q"), (0x1d4ae, 12, "S|T|U|V|W|X|Y|Z|a|b|c|d"), (0x1d4bb, 1, "f"),
  (0x1d4bd, 7, "h|i|j|k|l|m|n"),
  (0x1d4c5, 32, "p|q|r|s|t|u|v|w|x|y|z|A|B|C|D|E|F|G|H|I|J|K|L|M|N|O|P|Q|R|S|T|U"),
  (0x1d4e5, 32, "V|W|X|Y|Z|a|b|c|d|e|f|g|h|i|j|k|l|m|n|o|p|q|r|s|t|u|v|w|x|y|z|A"),
  (0x1d505, 1, "B"), (0x1d507, 4, "D|E|F|G"), (0x1d50d, 8, "J|K|L|M|N|O|P|Q"),
  (0x1d516, 7, "S|T|U|V|W|X|Y"),
  (0x1d51e, 28, "a|b|c|d|e|f|g|h|i|j|k|l|m|n|o|p|q|r|s|t|u|v|w|x|y|z|A|B"),
  (0x1d53b, 4, "D|E|F|G"), (0x1d540, 5, "I|J|K|L|M"), (0x1d546, 1, "O"),
  (0x1d54a, 7, "S|T|U|V|W|X|Y"),
  (0x1d552, 32, "a|b|c|d|e|f|g|h|i|j|k|l|m|n|o|p|q|r|s|t|u|v|w|x|y|z|A|B|C|D|E|F"),
  (0x1d572, 32, "G|H|I|J|K|L|M|N|O|P|Q|R|S|T|U|V|W|X|Y|Z|a|b|c|d|e|f|g|h|i|j|k|l"),
  (0x1d592, 32, "m|n|o|p|q|r|s|t|u|v|w|x|y|z|A|B|C|D|E|F|G|H|I|J|K|L|M|N|O|P|Q|R"),
  (0x1d5b2, 32, "S|T|U|V|W|X|Y|Z|a|b|c|d|e|f|g|h|i|j|k|l|m|n|o|p|q|r|s|t|u|v|w|x"),
  (0x1d5d2, 32, "y|z|A|B|C|D|E|F|G|H|I|J|K|L|M|N|O|P|Q|R|S|T|U|V|W|X|Y|Z|a|b|c|d"),
  (0x1d5f2, 32, "e|f|g|h|i|j|k|l|m|n|o|p|q|r|s|t|u|v|w|x|y|z|A|B|C|D|E|F|G|H|I|J"),
  (0x1d612, 32, "K|L|M|N|O|P|Q|R|S|T|U|V|W|X|Y|Z|a|b|c|d|e|f|g|h|i|j|k|l|m|n|o|p"),
  (0x1d632, 32, "q|r|s|t|u|v|w|x|y|z|A|B|C|D|E|F|G|H|I|J|K|L|M|N|O|P|Q|R|S|T|U|V"),
  (0x1d652, 32, "W|X|Y|Z|a|b|c|d|e|f|g|h|i|j|k|l|m|n|o|p|q|r|s|t|u|v|w|x|y|z|A|B"),
  (0x1d672, 32, "C|D|E|F|G|H|I|J|K|L|M|N|O|P|Q|R|S|T|U|V|W|X|Y|Z|a|b|c|d|e|f|g|h"),
  (0x1d692, 18, "i|j|k|l|m|n|o|p|q|r|s|t|u|v|w|x|y|z"),
  (0x1d6a8, 25, "A|B|G|D|E|Z|E|Th|I|K|L|M|N|X|O|P|R|Th|S|T|U|Ph|Kh|Ps|O"),
  (0x1d6c2, 25, "a|b|g|d|e|z|e|th|i|k|l|m|n|x|o|p|r|s|s|t|u|ph|kh|ps|o"),
  (0x1d6dc, 31, "e|th|k|ph|r|p|A|B|G|D|E|Z|E|Th|I|K|L|M|N|X|O|P|R|Th|S|T|U|Ph|Kh|Ps|O"),
  (0x1d6fc, 25, "a|b|g|d|e|z|e|th|i|k|l|m|n|x|o|p|r|s|s|t|u|ph|kh|ps|o"),
  (0x1d716, 31, "e|th|k|ph|r|p|A|B|G|D|E|Z|E|Th|I|K|L|M|N|X|O|P|R|Th|S|T|U|Ph|Kh|Ps|O"),
  (0x1d736, 25, "a|b|g|d|e|z|e|th|i|k|l|m|n|x|o|p|r|s|s|t|u|ph|kh|ps|o"),
  (0x1d750, 31, "e|th|k|ph|r|p|A|B|G|D|E|Z|E|Th|I|K|L|M|N|X|O|P|R|Th|S|T|U|Ph|Kh|Ps|O"),
  (0x1d770, 25, "a|b|g|d|e|z|e|th|i|k|l|m|n|x|o|p|r|s|s|t|u|ph|kh|ps|o"),
  (0x1d78a, 31, "e|th|k|ph|r|p|A|B|G|D|E|Z|E|Th|I|K|L|M|N|X|O|P|R|Th|S|T|U|Ph|Kh|Ps|O"),
  (0x1d7aa, 25, "a|b|g|d|e|z|e|th|i|k|l|m|n|x|o|p|r|s|s|t|u|ph|kh|ps|o"),
  (0x1d7c4, 6, "e|th|k|ph|r|p"),
  (0x1d7ce, 32, "0|1|2|3|4|5|6|7|8|9|0|1|2|3|4|5|6|7|8|9|0|1|2|3|4|5|6|7|8|9|0|1"),
  (0x1d7ee, 18, "2|3|4|5|6|7|8|9|0|1|2|3|4|5|6|7|8|9"), (0x1f308, 1, "rainbow "),
  (0x1f30d, 1, "earth africa "), (0x1f388, 2, "balloon |tada "), (0x1f40d, 1, "snake "),
  (0x1f427, 1, "penguin "), (0x1f433, 1, "whale "), (0x1f44b, 1, "wave "), (0x1f44d, 1, "+1 "),
  (0x1f4a5, 1, "boom "), (0x1f4a9, 1, "poop "), (0x1f525, 1, "fire "),
  (0x1f600, 7, "grinning |grin |joy |smiley |smile |sweat smile |laughing "),
  (0x1f609, 2, "wink |blush "), (0x1f60d, 2, "heart eyes |sunglasses "), (0x1f622, 1, "cry "),
  (0x1f62d, 1, "sob "), (0x1f680, 1, "rocket "), (0x1f980, 1, "crab "), (0x1f984, 1, "unicorn ")]

/-- The consonants that start a syllable of Hangul. -/
def hangulStarts : List String :=
  ["g", "gg", "n", "d", "dd", "r", "m", "b", "bb", "s", "ss", "", "j", "jj", "c", "k", "t", "p", "h"]

/-- The vowels of syllables of Hangul. -/
def hangulVowels : List String :=
  ["a", "ae", "ya", "yae", "eo", "e", "yeo", "ye", "o", "wa", "wae", "oe", "yo", "u", "weo", "we",
    "wi", "yu", "eu", "yi", "i"]

/-- The consonants that end a syllable of Hangul. -/
def hangulEnds : List String :=
  ["", "g", "gg", "gs", "n", "nj", "nh", "d", "l", "lg", "lm", "lb", "ls", "lt", "lp", "lh", "m",
    "b", "bs", "s", "ss", "ng", "j", "c", "k", "t", "p", "h"]

/-- The spelling of a syllable of Hangul, by its number. -/
def hangulSpelling (index : Nat) : String :=
  hangulStarts.getD (index / 588) "" ++ hangulVowels.getD (index % 588 / 28) "" ++
    hangulEnds.getD (index % 28) ""

/-- The spelling of a character. -/
def latinSpelling? (c : Char) : Option String :=
  let code := c.toNat
  if code < 128 then some (String.singleton c)
  else if 0xac00 ≤ code ∧ code < 0xac00 + 11172 then some (hangulSpelling (code - 0xac00))
  else
    match latinRows.find? fun r => r.1 ≤ code && code < r.1 + r.2.1 with
    | some (first, _, spellings) => (spellings.splitOn "|")[code - first]?
    | none => none

end Scaffold.Text
