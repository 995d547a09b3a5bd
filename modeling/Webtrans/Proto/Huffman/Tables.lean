import Webtrans.Data.DecodeTable

namespace Webtrans.Proto

open Webtrans.Data

/-! The decoding tables of `webtrans-proto/src/huffman.rs`, in the reverse of
the source's order. -/

abbrev DecodeValue := TableEntry UInt8
abbrev HuffmanDecoder := TableDecoder UInt8

/-- Every form of the `bits_decode!` macro: the symbols, then the subtables. -/
def bitsDecode (lookup : Nat) (syms : List UInt8) (subtables : List HuffmanDecoder) : HuffmanDecoder :=
  .mk lookup (syms.map .sym ++ subtables.map .subtable)

def ascii (char : Char) : UInt8 := UInt8.ofNat char.toNat

namespace Huffman

def eof : HuffmanDecoder := bitsDecode 8 [] []
def end31_1 : HuffmanDecoder := bitsDecode 2 [10, 13, 22] [eof]
def end27B_1111 : HuffmanDecoder := bitsDecode 1 [249] [end31_1]
def end27B_1110 : HuffmanDecoder := bitsDecode 1 [127, 220] []
def end27B_1101 : HuffmanDecoder := bitsDecode 1 [30, 31] []
def end27B_1100 : HuffmanDecoder := bitsDecode 1 [28, 29] []
def end27B_1011 : HuffmanDecoder := bitsDecode 1 [26, 27] []
def end27B_1010 : HuffmanDecoder := bitsDecode 1 [24, 25] []
def end27B_1001 : HuffmanDecoder := bitsDecode 1 [21, 23] []
def end27B_1000 : HuffmanDecoder := bitsDecode 1 [19, 20] []
def end27B_0111 : HuffmanDecoder := bitsDecode 1 [17, 18] []
def end27B_0110 : HuffmanDecoder := bitsDecode 1 [15, 16] []
def end27B_0101 : HuffmanDecoder := bitsDecode 1 [12, 14] []
def end27B_0100 : HuffmanDecoder := bitsDecode 1 [8, 11] []
def end27B_0011 : HuffmanDecoder := bitsDecode 1 [6, 7] []
def end27B_0010 : HuffmanDecoder := bitsDecode 1 [4, 5] []
def end27B_0001 : HuffmanDecoder := bitsDecode 1 [2, 3] []
def end23B_1111 : HuffmanDecoder := bitsDecode 4
  [254] [end27B_0001, end27B_0010, end27B_0011, end27B_0100, end27B_0101, end27B_0110,
    end27B_0111, end27B_1000, end27B_1001, end27B_1010, end27B_1011, end27B_1100, end27B_1101,
    end27B_1110, end27B_1111]
def end23B_1110 : HuffmanDecoder := bitsDecode 4
  [211, 212, 214, 221, 222, 223, 241, 244, 245, 246, 247, 248, 250, 251, 252, 253] []
def end27A_111 : HuffmanDecoder := bitsDecode 1 [203, 204] []
def end23B_1101 : HuffmanDecoder := bitsDecode 3 [218, 219, 238, 240, 242, 243, 255] [end27A_111]
def end23B_1100 : HuffmanDecoder := bitsDecode 3 [192, 193, 200, 201, 202, 205, 210, 213] []
def end23B_1011 : HuffmanDecoder := bitsDecode 2 [199, 207, 234, 235] []
def end23B_1010 : HuffmanDecoder := bitsDecode 1 [236, 237] []
def end23B_1001 : HuffmanDecoder := bitsDecode 1 [215, 225] []
def end23B_1000 : HuffmanDecoder := bitsDecode 1 [171, 206] []
def end23B_0111 : HuffmanDecoder := bitsDecode 1 [148, 159] []
def end23B_0110 : HuffmanDecoder := bitsDecode 1 [144, 145] []
def end23B_0101 : HuffmanDecoder := bitsDecode 1 [9, 142] []
def end19_1111 : HuffmanDecoder := bitsDecode 4
  [188, 191, 197, 231, 239] [end23B_0101, end23B_0110, end23B_0111, end23B_1000, end23B_1001,
    end23B_1010, end23B_1011, end23B_1100, end23B_1101, end23B_1110, end23B_1111]
def end19_1110 : HuffmanDecoder := bitsDecode 4
  [147, 149, 150, 151, 152, 155, 157, 158, 165, 166, 168, 174, 175, 180, 182, 183] []
def end23A_111 : HuffmanDecoder := bitsDecode 1 [141, 143] []
def end23A_110 : HuffmanDecoder := bitsDecode 1 [139, 140] []
def end23A_101 : HuffmanDecoder := bitsDecode 1 [137, 138] []
def end23A_100 : HuffmanDecoder := bitsDecode 1 [1, 135] []
def end19_1101 : HuffmanDecoder := bitsDecode 3
  [198, 228, 232, 233] [end23A_100, end23A_101, end23A_110, end23A_111]
def end19_1100 : HuffmanDecoder := bitsDecode 3 [178, 181, 185, 186, 187, 189, 190, 196] []
def end19_1011 : HuffmanDecoder := bitsDecode 3 [154, 156, 160, 163, 164, 169, 170, 173] []
def end19_1010_11 : HuffmanDecoder := bitsDecode 1 [136, 146] []
def end19_1010_10 : HuffmanDecoder := bitsDecode 1 [133, 134] []
def end19_1010_01 : HuffmanDecoder := bitsDecode 1 [129, 132] []
def end19_1010 : HuffmanDecoder := bitsDecode 2 [230] [end19_1010_01, end19_1010_10, end19_1010_11]
def end19_1001 : HuffmanDecoder := bitsDecode 2 [216, 217, 227, 229] []
def end19_1000 : HuffmanDecoder := bitsDecode 2 [176, 177, 179, 209] []
def end19_0111 : HuffmanDecoder := bitsDecode 2 [153, 161, 167, 172] []
def end19_0110 : HuffmanDecoder := bitsDecode 1 [224, 226] []
def end19_0101 : HuffmanDecoder := bitsDecode 1 [184, 194] []
def end19_0100 : HuffmanDecoder := bitsDecode 1 [131, 162] []
def end19_0011 : HuffmanDecoder := bitsDecode 1 [128, 130] []
def end15_1 : HuffmanDecoder := bitsDecode 4
  [ascii '\x5c', 195, 208] [end19_0011, end19_0100, end19_0101, end19_0110, end19_0111,
    end19_1000, end19_1001, end19_1010, end19_1011, end19_1100, end19_1101, end19_1110,
    end19_1111]
def end14_1 : HuffmanDecoder := bitsDecode 1 [ascii '{'] [end15_1]
def end14_0 : HuffmanDecoder := bitsDecode 1 [ascii '<', ascii '\x60'] []
def end13_11 : HuffmanDecoder := bitsDecode 1 [] [end14_0, end14_1]
def end13_10 : HuffmanDecoder := bitsDecode 1 [ascii '^', ascii '}'] []
def end9B_11 : HuffmanDecoder := bitsDecode 2 [ascii ']', ascii '~'] [end13_10, end13_11]
def end9B_10 : HuffmanDecoder := bitsDecode 2 [0, ascii '$', ascii '@', ascii '['] []
def end9B_01 : HuffmanDecoder := bitsDecode 1 [ascii '#', ascii '>'] []
def end8_1 : HuffmanDecoder := bitsDecode 2 [ascii '|'] [end9B_01, end9B_10, end9B_11]
def end9A_1 : HuffmanDecoder := bitsDecode 1 [ascii '\x27', ascii '+'] []
def end8_0 : HuffmanDecoder := bitsDecode 1 [ascii '?'] [end9A_1]
def end7_1 : HuffmanDecoder := bitsDecode 1 [] [end8_0, end8_1]
def end7_0 : HuffmanDecoder := bitsDecode 2 [ascii '!', ascii '\x22', ascii '(', ascii ')'] []
def end5_11 : HuffmanDecoder := bitsDecode 1 [] [end7_0, end7_1]
def end5_10 : HuffmanDecoder := bitsDecode 1 [ascii 'X', ascii 'Z'] []
def end5_01 : HuffmanDecoder := bitsDecode 1 [ascii ',', 59] []
def end5_00 : HuffmanDecoder := bitsDecode 1 [ascii '&', ascii '*'] []
def end0_11111 : HuffmanDecoder := bitsDecode 2 [] [end5_00, end5_01, end5_10, end5_11]
def end0_11110 : HuffmanDecoder := bitsDecode 2 [ascii 'w', ascii 'x', ascii 'y', ascii 'z'] []
def end0_11101 : HuffmanDecoder := bitsDecode 2 [ascii 'j', ascii 'k', ascii 'q', ascii 'v'] []
def end0_11100 : HuffmanDecoder := bitsDecode 2 [ascii 'U', ascii 'V', ascii 'W', ascii 'Y'] []
def end0_11011 : HuffmanDecoder := bitsDecode 2 [ascii 'Q', ascii 'R', ascii 'S', ascii 'T'] []
def end0_11010 : HuffmanDecoder := bitsDecode 2 [ascii 'M', ascii 'N', ascii 'O', ascii 'P'] []
def end0_11001 : HuffmanDecoder := bitsDecode 2 [ascii 'I', ascii 'J', ascii 'K', ascii 'L'] []
def end0_11000 : HuffmanDecoder := bitsDecode 2 [ascii 'E', ascii 'F', ascii 'G', ascii 'H'] []
def end0_10111 : HuffmanDecoder := bitsDecode 2 [ascii ':', ascii 'B', ascii 'C', ascii 'D'] []
def end0_10110 : HuffmanDecoder := bitsDecode 1 [ascii 'r', ascii 'u'] []
def end0_10101 : HuffmanDecoder := bitsDecode 1 [ascii 'n', ascii 'p'] []
def end0_10100 : HuffmanDecoder := bitsDecode 1 [ascii 'l', ascii 'm'] []
def end0_10011 : HuffmanDecoder := bitsDecode 1 [ascii 'g', ascii 'h'] []
def end0_10010 : HuffmanDecoder := bitsDecode 1 [ascii 'd', ascii 'f'] []
def end0_10001 : HuffmanDecoder := bitsDecode 1 [ascii '_', ascii 'b'] []
def end0_10000 : HuffmanDecoder := bitsDecode 1 [ascii '=', ascii 'A'] []
def end0_01111 : HuffmanDecoder := bitsDecode 1 [ascii '8', ascii '9'] []
def end0_01110 : HuffmanDecoder := bitsDecode 1 [ascii '6', ascii '7'] []
def end0_01101 : HuffmanDecoder := bitsDecode 1 [ascii '4', ascii '5'] []
def end0_01100 : HuffmanDecoder := bitsDecode 1 [ascii '/', ascii '3'] []
def end0_01011 : HuffmanDecoder := bitsDecode 1 [ascii '-', ascii '.'] []
def end0_01010 : HuffmanDecoder := bitsDecode 1 [32, ascii '%'] []
def hpackString : HuffmanDecoder := bitsDecode 5
  [ascii '0', ascii '1', ascii '2', ascii 'a', ascii 'c', ascii 'e', ascii 'i', ascii 'o',
    ascii 's', ascii 't'] [end0_01010, end0_01011, end0_01100, end0_01101, end0_01110,
    end0_01111, end0_10000, end0_10001, end0_10010, end0_10011, end0_10100, end0_10101,
    end0_10110, end0_10111, end0_11000, end0_11001, end0_11010, end0_11011, end0_11100,
    end0_11101, end0_11110, end0_11111]

end Huffman

end Webtrans.Proto
